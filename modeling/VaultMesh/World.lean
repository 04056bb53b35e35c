import Mathlib.Data.List.AList
import VaultMesh.Calls
import VaultMesh.Interaction.Run

/-!
# The world behind the ports

`MemoryMetadataStore` is the coordinator's store, three maps keyed as in the
source. An anchor is any model of the `BlobAnchor` port; `shardMap` is the one
which is a map from shard addresses to bytes. `Environment` holds what the
world chooses freely at every call: clock readings, random ids, the order in
which a hash map lists its keys, and the answers of peers and of the signature
check. The number of calls answered so far is the time which these choices
depend on, so they may differ on every call.
-/

namespace VaultMesh

open Interaction

/-! ## The metadata store -/

/-- The in-memory `MetadataStore`. -/
structure MemoryMetadataStore where
  contracts : AList fun _ : AppId => AppContract
  namespaces : AList fun _ : NamespaceId => Namespace
  manifests : AList fun _ : NamespaceId × BlobId => Manifest

namespace MemoryMetadataStore

def empty : MemoryMetadataStore := ⟨∅, ∅, ∅⟩

def registerApp (store : MemoryMetadataStore) (contract : AppContract) : MemoryMetadataStore :=
  { store with contracts := store.contracts.insert contract.appId contract }

def getContract (store : MemoryMetadataStore) (app : AppId) : Option AppContract :=
  store.contracts.lookup app

def createNamespace (store : MemoryMetadataStore) (ns : Namespace) : MemoryMetadataStore :=
  { store with namespaces := store.namespaces.insert ns.id ns }

def getNamespace (store : MemoryMetadataStore) (id : NamespaceId) : Option Namespace :=
  store.namespaces.lookup id

/-- One entry of the usage loop. -/
def countUsage (id : NamespaceId) (usage : NamespaceUsage)
    (entry : Σ _ : NamespaceId × BlobId, Manifest) : NamespaceUsage :=
  if entry.1.1 = id then
    ⟨usage.bytes + entry.2.ciphertextLen, usage.objects + 1⟩
  else
    usage

def namespaceUsage (store : MemoryMetadataStore) (id : NamespaceId) : NamespaceUsage :=
  store.manifests.entries.foldl (countUsage id) ⟨0, 0⟩

def listNamespaces (store : MemoryMetadataStore) : List NamespaceId :=
  store.namespaces.keys

def putManifest (store : MemoryMetadataStore) (manifest : Manifest) : MemoryMetadataStore :=
  { store with
    manifests := store.manifests.insert (manifest.ns, manifest.blobId) manifest }

def getManifest (store : MemoryMetadataStore) (ns : NamespaceId) (blobId : BlobId) :
    Option Manifest :=
  store.manifests.lookup (ns, blobId)

def listBlobs (store : MemoryMetadataStore) (ns : NamespaceId) : List BlobId :=
  (store.manifests.keys.filter fun key => decide (key.1 = ns)).map Prod.snd

def deleteManifest (store : MemoryMetadataStore) (ns : NamespaceId) (blobId : BlobId) :
    MemoryMetadataStore :=
  { store with manifests := store.manifests.erase (ns, blobId) }

theorem getContract_registerApp_of_ne (store : MemoryMetadataStore) {contract : AppContract}
    {app : AppId} (other : app ≠ contract.appId) :
    (store.registerApp contract).getContract app = store.getContract app :=
  AList.lookup_insert_ne other

@[simp]
theorem getNamespace_createNamespace_self (store : MemoryMetadataStore) (ns : Namespace) :
    (store.createNamespace ns).getNamespace ns.id = some ns :=
  AList.lookup_insert _

theorem getNamespace_createNamespace_of_ne (store : MemoryMetadataStore) {ns : Namespace}
    {id : NamespaceId} (other : id ≠ ns.id) :
    (store.createNamespace ns).getNamespace id = store.getNamespace id :=
  AList.lookup_insert_ne other

@[simp]
theorem getManifest_putManifest_self (store : MemoryMetadataStore) (manifest : Manifest) :
    (store.putManifest manifest).getManifest manifest.ns manifest.blobId = some manifest := by
  simp [getManifest, putManifest]

theorem getManifest_putManifest_of_ne (store : MemoryMetadataStore) (manifest : Manifest)
    {ns : NamespaceId} {blobId : BlobId} (other : (ns, blobId) ≠ (manifest.ns, manifest.blobId)) :
    (store.putManifest manifest).getManifest ns blobId = store.getManifest ns blobId := by
  simp only [getManifest, putManifest]
  exact AList.lookup_insert_ne other

@[simp]
theorem getManifest_deleteManifest_self (store : MemoryMetadataStore) (ns : NamespaceId)
    (blobId : BlobId) : (store.deleteManifest ns blobId).getManifest ns blobId = none := by
  simp [getManifest, deleteManifest]

theorem getManifest_deleteManifest_of_ne (store : MemoryMetadataStore)
    {ns ns' : NamespaceId} {blobId blobId' : BlobId} (other : (ns, blobId) ≠ (ns', blobId')) :
    (store.deleteManifest ns' blobId').getManifest ns blobId = store.getManifest ns blobId := by
  simp only [getManifest, deleteManifest]
  exact AList.lookup_erase_ne other

/-- The keys listed are those which have a manifest. -/
theorem mem_listBlobs {store : MemoryMetadataStore} {ns : NamespaceId} {blobId : BlobId} :
    blobId ∈ store.listBlobs ns ↔ (store.getManifest ns blobId).isSome := by
  rw [getManifest, AList.lookup_isSome]
  simp [listBlobs, AList.mem_keys]

def after (store : MemoryMetadataStore) : PortCall → MemoryMetadataStore
  | .registerApp contract => store.registerApp contract
  | .createNamespace ns => store.createNamespace ns
  | .putManifest manifest => store.putManifest manifest
  | .deleteManifest ns blobId => store.deleteManifest ns blobId
  | _ => store

/-- A manifest found after a call was there before, or the call wrote it. -/
theorem getManifest_after {store : MemoryMetadataStore} {call : PortCall} {ns : NamespaceId}
    {blobId : BlobId} {manifest : Manifest}
    (found : (store.after call).getManifest ns blobId = some manifest) :
    store.getManifest ns blobId = some manifest ∨
      call = .putManifest manifest ∧ manifest.ns = ns ∧ manifest.blobId = blobId := by
  cases call with
  | putManifest put =>
      by_cases key : (ns, blobId) = (put.ns, put.blobId)
      · rcases Prod.mk.inj key with ⟨rfl, rfl⟩
        rcases Option.some.inj
          ((getManifest_putManifest_self store put).symm.trans found) with rfl
        exact Or.inr ⟨rfl, rfl, rfl⟩
      · left
        rw [← getManifest_putManifest_of_ne store put key]
        exact found
  | deleteManifest ns' blobId' =>
      by_cases key : (ns, blobId) = (ns', blobId')
      · rcases Prod.mk.inj key with ⟨rfl, rfl⟩
        cases (getManifest_deleteManifest_self store ns blobId).symm.trans found
      · left
        rw [← getManifest_deleteManifest_of_ne store key]
        exact found
  | _ => exact Or.inl found

theorem getManifest_after_of_other {call : PortCall} {ns : NamespaceId} {blobId : BlobId}
    (unwritten : ∀ manifest, call = .putManifest manifest →
      (ns, blobId) ≠ (manifest.ns, manifest.blobId))
    (kept : call ≠ .deleteManifest ns blobId) (store : MemoryMetadataStore) :
    (store.after call).getManifest ns blobId = store.getManifest ns blobId := by
  cases call with
  | putManifest manifest => exact getManifest_putManifest_of_ne store manifest (unwritten _ rfl)
  | deleteManifest ns' blobId' =>
      apply getManifest_deleteManifest_of_ne
      intro same
      rcases Prod.mk.inj same with ⟨rfl, rfl⟩
      exact kept rfl
  | _ => rfl

/-- The stores which the operations of the store can build. -/
inductive Built : MemoryMetadataStore → Prop where
  | empty : Built .empty
  | after {store : MemoryMetadataStore} (call : PortCall) (built : Built store) :
      Built (store.after call)

/-- Every manifest is stored under its own address. -/
def Keyed (store : MemoryMetadataStore) : Prop :=
  ∀ ns blobId manifest, store.getManifest ns blobId = some manifest →
    manifest.ns = ns ∧ manifest.blobId = blobId

theorem Built.keyed {store : MemoryMetadataStore} (built : Built store) : Keyed store := by
  induction built with
  | empty =>
      intro ns blobId manifest found
      cases found
  | after call built ih =>
      intro ns blobId manifest found
      rcases getManifest_after found with before | ⟨-, sameNs, sameBlob⟩
      · exact ih ns blobId manifest before
      · exact ⟨sameNs, sameBlob⟩

end MemoryMetadataStore

/-! ## Anchors -/

/-- A model of the `BlobAnchor` port over a state `A`. -/
structure AnchorModel (A : Type) where
  putShard : A → ShardRef → Bytes → PortResult Unit × A
  getShard : A → ShardRef → PortResult Bytes
  deleteBlob : A → NamespaceId → BlobId → PortResult Unit × A

def AnchorModel.after {A : Type} (anchors : AnchorModel A) (anchor : A) : PortCall → A
  | .putShard ref bytes => (anchors.putShard anchor ref bytes).2
  | .deleteBlob ns blobId => (anchors.deleteBlob anchor ns blobId).2
  | _ => anchor

abbrev ShardMap := ShardRef → Option Bytes

namespace ShardMap

def erase (shards : ShardMap) (ns : NamespaceId) (blobId : BlobId) : ShardMap :=
  fun ref => if ref.ns = ns ∧ ref.blobId = blobId then none else shards ref

def read (shards : ShardMap) (ref : ShardRef) : PortResult Bytes :=
  match shards ref with
  | some bytes => .ok bytes
  | none => .error .notFound

end ShardMap

/-- The anchor as a map: writes succeed, and a missing shard is `NotFound`. -/
def shardMap : AnchorModel ShardMap where
  putShard shards ref bytes := (.ok (), Function.update shards ref (some bytes))
  getShard shards ref := shards.read ref
  deleteBlob shards ns blobId := (.ok (), shards.erase ns blobId)

/-! ## The world -/

/-- What is chosen freely at every call. -/
structure Environment where
  clock : ℕ → Timestamp
  uuid : ℕ → String
  blobOrder : ℕ → List BlobId → List BlobId
  blobOrder_perm : ∀ tick blobs, (blobOrder tick blobs).Perm blobs
  namespaceOrder : ℕ → List NamespaceId → List NamespaceId
  namespaceOrder_perm : ∀ tick namespaces, (namespaceOrder tick namespaces).Perm namespaces
  fetch : ℕ → String → ShardRef → PortResult Bytes
  send : ℕ → String → ShardRef → Bytes → PortResult Unit
  signature : ByteArray → Bytes
  accepts : List ByteArray → ByteArray → Bytes → Bool

/-- Everything the ports share: the store, the anchor, the messages signed so far, and the number
of calls answered so far. -/
structure World (A : Type) where
  store : MemoryMetadataStore
  anchor : A
  signed : List ByteArray
  tick : ℕ

/-- `format!("{prefix}-{}", ..)` of `RandomIdSource`. -/
def Environment.freshId (env : Environment) (tick : ℕ) (kind : String) : String :=
  kind ++ "-" ++ env.uuid tick

theorem Environment.freshId_injective {env : Environment} (fresh : Function.Injective env.uuid)
    (kind : String) : Function.Injective fun tick => env.freshId tick kind := by
  intro first second same
  apply fresh
  have texts := congrArg String.toList same
  simp only [Environment.freshId, String.toList_append] at texts
  exact String.toList_inj.mp (List.append_cancel_left texts)

/-- `Ed25519Verifier::verify_signature`. -/
def Environment.verify (env : Environment) (signed : List ByteArray) (token : CapabilityToken) :
    PortResult Unit :=
  if token.signature.length ≠ 64 then
    .error (.crypto "signature must be 64 bytes")
  else if env.accepts signed token.claims.canonicalBytes token.signature then
    .ok ()
  else
    .error (.crypto "capability signature invalid")

namespace World

variable {A : Type}

def after (anchors : AnchorModel A) (world : World A) (request : PortCall) : World A where
  store := world.store.after request
  anchor := anchors.after world.anchor request
  signed :=
    match request with
    | .sign claims => claims.canonicalBytes :: world.signed
    | _ => world.signed
  tick := world.tick + 1

def reply (env : Environment) (anchors : AnchorModel A) (world : World A) :
    (request : PortCall) → request.Answer
  | .now => env.clock world.tick
  | .newId kind => env.freshId world.tick kind
  | .sign claims => .ok ⟨claims, env.signature claims.canonicalBytes⟩
  | .verifySignature token => env.verify world.signed token
  | .registerApp _ => .ok ()
  | .getContract app => .ok (world.store.getContract app)
  | .createNamespace _ => .ok ()
  | .getNamespace id => .ok (world.store.getNamespace id)
  | .namespaceUsage id => .ok (world.store.namespaceUsage id)
  | .listNamespaces => .ok (env.namespaceOrder world.tick world.store.listNamespaces)
  | .putManifest _ => .ok ()
  | .getManifest ns blobId => .ok (world.store.getManifest ns blobId)
  | .listBlobs ns => .ok (env.blobOrder world.tick (world.store.listBlobs ns))
  | .deleteManifest _ _ => .ok ()
  | .putShard ref bytes => (anchors.putShard world.anchor ref bytes).1
  | .getShard ref => anchors.getShard world.anchor ref
  | .deleteBlob ns blobId => (anchors.deleteBlob world.anchor ns blobId).1
  | .sendShard peer ref bytes => env.send world.tick peer ref bytes
  | .fetchShard peer ref => env.fetch world.tick peer ref

end World

def world {A : Type} (env : Environment) (anchors : AnchorModel A) : Handler ports (World A) where
  answer state request := (state.reply env anchors request, state.after anchors request)

/-- The same world, with something else changing the anchor before every call. -/
def disturbedWorld {A : Type} (env : Environment) (anchors : AnchorModel A)
    (event : ℕ → A → A) : Handler ports (World A) :=
  (world env anchors).disturbed fun state => { state with anchor := event state.tick state.anchor }

/-! ## Frames -/

section Frames

variable {A : Type} {anchors : AnchorModel A}

@[simp]
theorem world_answer_fst (env : Environment) (state : World A) (request : PortCall) :
    ((world env anchors).answer state request).1 = state.reply env anchors request :=
  rfl

@[simp]
theorem world_answer_snd (env : Environment) (state : World A) (request : PortCall) :
    ((world env anchors).answer state request).2 = state.after anchors request :=
  rfl

@[simp]
theorem disturbedWorld_answer_fst (env : Environment) (event : ℕ → A → A) (state : World A)
    (request : PortCall) :
    ((disturbedWorld env anchors event).answer state request).1 =
      World.reply env anchors { state with anchor := event state.tick state.anchor } request :=
  rfl

@[simp]
theorem disturbedWorld_answer_snd (env : Environment) (event : ℕ → A → A) (state : World A)
    (request : PortCall) :
    ((disturbedWorld env anchors event).answer state request).2 =
      World.after anchors { state with anchor := event state.tick state.anchor } request :=
  rfl

theorem MemoryMetadataStore.after_of_readOnly {request : PortCall} (reads : ReadOnly request)
    (store : MemoryMetadataStore) : store.after request = store := by
  cases request <;> first | rfl | exact reads.elim

theorem AnchorModel.after_of_readOnly {request : PortCall} (reads : ReadOnly request)
    (anchor : A) : anchors.after anchor request = anchor := by
  cases request <;> first | rfl | exact reads.elim

/-- A program which only reads leaves the store and the anchor as they are, at every moment. -/
theorem readOnly_run {α : Type} {program : UseCase α}
    {post : List PortExchange → Except Failure α → Prop}
    (obeys : program.Obeys (fun _ => ReadOnly) [] post) (env : Environment)
    (anchors : AnchorModel A) (state : World A) :
    ((program.run (world env anchors) state).2.store = state.store ∧
      (program.run (world env anchors) state).2.anchor = state.anchor) ∧
    ∀ moment ∈ program.visits (world env anchors) state,
      moment.store = state.store ∧ moment.anchor = state.anchor := by
  rcases obeys.run_invariant
    (fun _ moment => moment.store = state.store ∧ moment.anchor = state.anchor)
    (world env anchors) state ⟨rfl, rfl⟩ (by
      rintro past request moment reads ⟨sameStore, sameAnchor⟩
      simp only [world_answer_snd, World.after, MemoryMetadataStore.after_of_readOnly reads,
        AnchorModel.after_of_readOnly reads]
      exact ⟨sameStore, sameAnchor⟩) with ⟨atEnd, onTheWay⟩
  refine ⟨atEnd, ?_⟩
  intro moment visited
  rcases onTheWay moment visited with ⟨_, same⟩
  exact same

theorem authorize_run_unchanged {env : Environment} {ns : NamespaceId} {token : CapabilityToken}
    {operation : Operation} {state checked : World A} {result : Except Failure AppId}
    (ran : (authorize ns token operation).run (world env anchors) state = (result, checked)) :
    checked.store = state.store ∧ checked.anchor = state.anchor := by
  have unchanged := (readOnly_run (authorize_obeys permits_readOnly.guard ns token operation [])
    env anchors state).1
  rw [ran] at unchanged
  exact unchanged

/-- An exchange found after a call was made before, or it is this call with its answer. -/
theorem mem_trace_append {env : Environment} {state : World A} {trace : List (ℕ × PortExchange)}
    {index other : ℕ} {call asked : PortCall} {reply : asked.Answer}
    (present : (other, ⟨asked, reply⟩) ∈
      trace ++ [(index, (⟨call, state.reply env anchors call⟩ : PortExchange))]) :
    (other, ⟨asked, reply⟩) ∈ trace ∨
      other = index ∧ call = asked ∧ reply = state.reply env anchors asked := by
  rcases List.mem_append.mp present with before | now
  · exact Or.inl before
  · rcases Prod.mk.inj (List.mem_singleton.mp now) with ⟨rfl, same⟩
    rcases Sigma.mk.inj same with ⟨rfl, answered⟩
    exact Or.inr ⟨rfl, rfl, eq_of_heq answered⟩

end Frames

/-! ## A small world -/

/-- Peers are offline, every signature is accepted, and ids count the calls. -/
def sampleEnvironment : Environment where
  clock _ := ⟨1000⟩
  uuid tick := toString tick
  blobOrder _ blobs := blobs
  blobOrder_perm _ _ := List.Perm.refl _
  namespaceOrder _ namespaces := namespaces
  namespaceOrder_perm _ _ := List.Perm.refl _
  fetch _ _ _ := .error (.unavailable "offline")
  send _ _ _ _ := .error (.unavailable "offline")
  signature _ := List.replicate 64 0
  accepts _ _ _ := true

/-- Requests to the coordinator need no anchor. -/
def noAnchor : AnchorModel Unit where
  putShard _ _ _ := (.error (.unavailable "no anchor"), ())
  getShard _ _ := .error (.unavailable "no anchor")
  deleteBlob _ _ _ := (.error (.unavailable "no anchor"), ())

theorem injective_toString : Function.Injective (toString : ℕ → String) := by
  intro left right same
  have digits := congrArg String.toList same
  simp only [Nat.toString_eq_ofList_toDigits, String.toList_ofList] at digits
  rw [← Nat.ofDigitChars_ten_toDigits (n := left), digits, Nat.ofDigitChars_ten_toDigits]

def sampleStore (quota : Quota) (retention : RetentionPolicy) : MemoryMetadataStore :=
  (MemoryMetadataStore.empty.registerApp
    (AppContract.new ⟨"app-1"⟩ quota retention ⟨1, 2⟩)).createNamespace ⟨⟨"ns-1"⟩, ⟨"app-1"⟩⟩

theorem getContract_sampleStore {quota : Quota} {retention : RetentionPolicy} {app : AppId}
    {contract : AppContract}
    (known : (sampleStore quota retention).getContract app = some contract) :
    AppContract.new ⟨"app-1"⟩ quota retention ⟨1, 2⟩ = contract := by
  by_cases same : app = ⟨"app-1"⟩
  · subst same
    exact Option.some.inj known
  · have other : (AList.insert (⟨"app-1"⟩ : AppId)
        (AppContract.new ⟨"app-1"⟩ quota retention ⟨1, 2⟩)
        (∅ : AList fun _ : AppId => AppContract)).lookup app = some contract := known
    rw [AList.lookup_insert_ne same] at other
    cases other

theorem getNamespace_sampleStore {quota : Quota} {retention : RetentionPolicy} {id : NamespaceId}
    {owned : Namespace} (known : (sampleStore quota retention).getNamespace id = some owned) :
    id = ⟨"ns-1"⟩ := by
  by_contra other
  have missing : (sampleStore quota retention).getNamespace id = none :=
    MemoryMetadataStore.getNamespace_createNamespace_of_ne _ other
  cases missing.symm.trans known

def sampleToken (operation : Operation) : CapabilityToken :=
  ⟨⟨⟨"app-1"⟩, ⟨"ns-1"⟩, operation, ⟨"nonce-1"⟩, ⟨2000⟩⟩, List.replicate 64 0⟩

def oneByte (byte : UInt8) : Slice :=
  ⟨[byte], by simp⟩

end VaultMesh
