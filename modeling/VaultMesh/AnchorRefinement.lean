import VaultMesh.Interaction.Simulation
import VaultMesh.Locality
import VaultMesh.Retention

/-!
# Anchors behind the port

The use-cases are written against the `BlobAnchor` port and proved over the map
of shards. An anchor refines this map if, for the addresses within its reach,
it writes, reads and removes shards as the map does. Then no request can tell
the two apart, whatever else is served at the same time: all ids which reach
the anchor were generated by a put, or are named by a delete.
-/

namespace VaultMesh

open Interaction Coding

/-- The anchor behaves as the map of shards on the addresses `within` its reach. -/
structure AnchorModel.Refines {A : Type} (anchors : AnchorModel A)
    (within : NamespaceId → BlobId → Prop) (stands : A → ShardMap → Prop) : Prop where
  put : ∀ {anchor shards} {ref : ShardRef} (bytes : Bytes), stands anchor shards →
    within ref.ns ref.blobId → (anchors.putShard anchor ref bytes).1 = .ok () ∧
      stands (anchors.putShard anchor ref bytes).2 (Function.update shards ref (some bytes))
  get : ∀ {anchor shards} {ref : ShardRef}, stands anchor shards → within ref.ns ref.blobId →
    anchors.getShard anchor ref = shards.read ref
  delete : ∀ {anchor shards ns blobId}, stands anchor shards → within ns blobId →
    (anchors.deleteBlob anchor ns blobId).1 = .ok () ∧
      stands (anchors.deleteBlob anchor ns blobId).2 (shards.erase ns blobId)

/-- Every id which a put may draw is within reach, in every namespace there is. -/
def Reachable (env : Environment) (store : MemoryMetadataStore)
    (within : NamespaceId → BlobId → Prop) : Prop :=
  ∀ ns owned, store.getNamespace ns = some owned →
    ∀ tick, within ns ⟨env.freshId tick "blob"⟩

/-- A delete names a blob within reach, or a hold makes it look for a manifest first. -/
def Request.Harmless (store : MemoryMetadataStore) (within : NamespaceId → BlobId → Prop) :
    Request → Prop
  | .delete ns _ blobId => within ns blobId ∨ ∀ owned contract,
      store.getNamespace ns = some owned → store.getContract owned.appId = some contract →
        0 < contract.retention.minDays
  | _ => True

/-- A condemned version was read. -/
theorem PruneVersions.Condemned.read {ns : NamespaceId} {objectId : String} {blobId : BlobId}
    {past : List PortExchange} (condemned : Condemned ns objectId blobId past) :
    ∃ key version, (⟨.getManifest ns key, .ok (some version)⟩ : PortExchange) ∈ past ∧
      version.blobId = blobId := by
  rcases condemned with ⟨snapshot, time, version, taken, clock, surplus, same⟩
  rcases surplus.beyond with ⟨position, -, sorted⟩
  have present : version ∈ tagged objectId snapshot.found := by
    apply (newestFirst_perm _).mem_iff.mp
    exact List.mem_of_getElem? sorted
  rcases exists_key_of_mem taken.read (mem_of_mem_tagged present) with ⟨key, -, answered⟩
  exact ⟨key, version, answered, same⟩

section Reach

variable {A : Type} {node : Node} {env : Environment} {requests : List Request}
  {first state : World A} {trace : Trace} {within : NamespaceId → BlobId → Prop} {index : ℕ}
  {ns : NamespaceId} {blobId : BlobId}

theorem Ledger.within_of_drawn (ledger : Ledger env requests first state trace)
    (reachable : Reachable env first.store within)
    (drawn : Drawn ns blobId (pastOf index trace)) : within ns blobId := by
  rcases drawn with ⟨⟨owned, found⟩, generated⟩
  rcases ledger.drawn index "blob" _ (mem_pastOf.mp generated) with ⟨tick, -, same⟩
  have here := reachable ns owned (ledger.owners index ns owned (mem_pastOf.mp found)) tick
  rw [← same] at here
  exact here

theorem Ledger.within_of_read (ledger : Ledger env requests first state trace)
    (lawful : System.Lawful (Request.rules node requests) trace)
    (reachable : Reachable env first.store within) {manifest : Manifest}
    (read : (index, ⟨.getManifest ns blobId, .ok (some manifest)⟩) ∈ trace) :
    within ns blobId := by
  rcases ledger.read index ns blobId manifest read with ⟨⟨rfl, rfl⟩, written⟩
  rcases ledger.admitted_of_written lawful written with
    ⟨writer, mesh, token, ciphertext, original, answer, past, -, -, same, admitted, told⟩
  rcases admitted.owned with ⟨owned, owner, -⟩
  rcases ledger.drawn writer "blob" _ (told _ admitted.fresh) with ⟨tick, -, generated⟩
  have here := reachable _ owned (ledger.owners writer _ owned (told _ owner)) tick
  have sameBlob : manifest.blobId = original.blobId := by
    rcases same with ⟨nameEnc, objectId, rfl⟩
    rfl
  rw [sameBlob]
  rw [← generated] at here
  exact here

/-- What a request removes is within reach. -/
theorem Ledger.within_of_deleteBlob (ledger : Ledger env requests first state trace)
    (lawful : System.Lawful (Request.rules node requests) trace)
    (reachable : Reachable env first.store within)
    (harmless : ∀ request ∈ requests, request.Harmless first.store within)
    (permitted : Request.rules node requests index (pastOf index trace) (.deleteBlob ns blobId)) :
    within ns blobId := by
  have ofKey : ∀ {key manifest},
      (⟨.getManifest ns key, .ok (some manifest)⟩ : PortExchange) ∈ pastOf index trace →
        key = blobId ∨ manifest.blobId = blobId → within ns blobId := by
    intro key manifest answered same
    have read := mem_pastOf.mp answered
    have reached := ledger.within_of_read lawful reachable read
    have keyed := (ledger.read index ns key manifest read).1.2
    rcases same with rfl | rfl
    · exact reached
    · rw [keyed]
      exact reached
  rcases permitted with ⟨request, listed, rule⟩
  cases request with
  | prune ns' objectId =>
      rcases rule with ⟨rfl, condemned⟩
      rcases condemned.read with ⟨key, version, answered, same⟩
      exact ofKey answered (Or.inr same)
  | delete ns' token blobId' =>
      rcases rule with ⟨rfl, rfl, owned, contract, owner, terms, elapsed⟩
      rcases elapsed with noHold | ⟨key, manifest, time, answered, same, -, -⟩
      · rcases harmless _ (List.mem_of_getElem? listed) with inside | held
        · exact inside
        · have positive := held owned contract (ledger.owners index _ _ (mem_pastOf.mp owner))
            (ledger.terms index _ _ (mem_pastOf.mp terms))
          rw [noHold] at positive
          simp at positive
      · exact ofKey answered same
  | _ => exact rule.elim

end Reach

/-- The two worlds hold the same, and the anchor stands for the map. -/
structure Mirrors {A : Type} (env : Environment) (requests : List Request) (first : World A)
    (stands : A → ShardMap → Prop) (state : World A) (mirror : World ShardMap) (trace : Trace) :
    Prop where
  ledger : Ledger env requests first state trace
  store : state.store = mirror.store
  signed : state.signed = mirror.signed
  tick : state.tick = mirror.tick
  anchor : stands state.anchor mirror.anchor

section Mirroring

variable {A : Type} {anchors : AnchorModel A} {within : NamespaceId → BlobId → Prop}
  {stands : A → ShardMap → Prop} {node : Node} {env : Environment} {requests : List Request}
  {first : World A}

/-- One call: both worlds answer alike and keep standing for each other. -/
theorem mirrors_matches (refines : anchors.Refines within stands)
    (fresh : Function.Injective env.uuid) (reachable : Reachable env first.store within)
    (harmless : ∀ request ∈ requests, request.Harmless first.store within) :
    System.Matches (world env anchors) (world env shardMap) (Request.localRules node requests)
      (Mirrors env requests first stands) := by
  intro state mirror trace index call lawful mirrors permitted
  have lawfulRules : System.Lawful (Request.rules node requests) trace :=
    lawful.imp fun _ _ _ => by
      rintro ⟨request, listed, rule, -⟩
      exact ⟨request, listed, rule⟩
  have rules : Request.rules node requests index (pastOf index trace) call := by
    rcases permitted with ⟨request, listed, rule, -⟩
    exact ⟨request, listed, rule⟩
  have ledger : Ledger env requests first (state.after anchors call)
      (trace ++ [(index, ⟨call, state.reply env anchors call⟩)]) :=
    mirrors.ledger.step fresh rules
  -- The answer and the two anchors after the call, whatever the call is.
  suffices answered : state.reply env anchors call = mirror.reply env shardMap call ∧
      stands (anchors.after state.anchor call) (shardMap.after mirror.anchor call) by
    refine ⟨answered.1, ledger, ?_, ?_, ?_, answered.2⟩
    · exact congrArg (fun store => MemoryMetadataStore.after store call) mirrors.store
    · simp only [world_answer_snd, World.after, mirrors.signed]
    · simp only [world_answer_snd, World.after, mirrors.tick]
  have unchanged := mirrors.anchor
  rcases permitted with ⟨request, -, -, kept⟩
  cases call with
  | putShard ref bytes =>
      have inside : within ref.ns ref.blobId := by
        rcases kept with ⟨sameNs, read | drawn⟩
        · rcases read with ⟨manifest, answered⟩
          rw [sameNs]
          exact mirrors.ledger.within_of_read lawfulRules reachable (mem_pastOf.mp answered)
        · rw [sameNs]
          exact mirrors.ledger.within_of_drawn reachable drawn
      exact refines.put bytes unchanged inside
  | getShard ref =>
      rcases kept with ⟨sameNs, manifest, answered⟩
      have inside : within ref.ns ref.blobId := by
        rw [sameNs]
        exact mirrors.ledger.within_of_read lawfulRules reachable (mem_pastOf.mp answered)
      exact ⟨refines.get unchanged inside, unchanged⟩
  | deleteBlob ns blobId =>
      exact refines.delete unchanged
        (mirrors.ledger.within_of_deleteBlob lawfulRules reachable harmless rules)
  | _ =>
      refine ⟨?_, unchanged⟩
      simp only [World.reply, mirrors.store, mirrors.signed, mirrors.tick]

/--
Whatever requests are served, in whatever order their calls are answered, they make
the same calls, get the same answers and end with the same results over an anchor
which refines the map of shards as over the map itself.
-/
theorem AnchorModel.Refines.exec (refines : anchors.Refines within stands)
    (fresh : Function.Injective env.uuid)
    (none : ∀ ns blobId, first.store.getManifest ns blobId = none)
    (reachable : Reachable env first.store within)
    (harmless : ∀ request ∈ requests, request.Harmless first.store within)
    {shards : ShardMap} (stood : stands first.anchor shards) (schedule : List ℕ) :
    System.Lockstep (Mirrors env requests first stands)
      (System.exec (world env anchors)
        (System.start first (requests.map (Request.program node))) schedule)
      (System.exec (world env shardMap)
        (System.start ⟨first.store, shards, first.signed, first.tick⟩
          (requests.map (Request.program node))) schedule) := by
  refine System.Lockstep.exec ?_ (Request.obedient_start_local node requests first)
    (mirrors_matches refines fresh reachable harmless) schedule
  exact System.lockstep_start _ ⟨ledger_start none, rfl, rfl, rfl, stood⟩

end Mirroring

end VaultMesh
