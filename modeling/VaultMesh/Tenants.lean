import VaultMesh.Interaction.Noninterference
import VaultMesh.Locality

/-!
# Tenants

The requests of a namespace run on a shared node as if the other tenants were not there: in any
interleaving they get the answers, and leave of their namespace what they would leave, if the
turns of all other requests were dropped. The anchor is the map of shards by address, which the
file system and the object store stand for. What a request sees of the store is the list of the
entries of its namespace, in the order in which the store keeps them.
-/

namespace VaultMesh

open Interaction Coding

/-! ## Entries of a namespace -/

section Entries

variable {κ : Type} [DecidableEq κ] {α : Type}

/-- Entries of other keys do not mind what is erased. -/
theorem filter_kerase_of_other (kept : κ → Bool) {key : κ} (other : kept key = false)
    (entries : List (Σ _ : κ, α)) :
    (List.kerase key entries).filter (fun entry => kept entry.1) =
      entries.filter fun entry => kept entry.1 := by
  induction entries with
  | nil => rfl
  | cons entry entries ih =>
      by_cases same : key = entry.1
      · rw [List.kerase_cons_eq same, List.filter_cons_of_neg (by simp [← same, other])]
      · rw [List.kerase_cons_ne same, List.filter_cons, List.filter_cons, ih]

theorem filter_kerase (kept : κ → Bool) (key : κ) (entries : List (Σ _ : κ, α)) :
    (List.kerase key entries).filter (fun entry => kept entry.1) =
      List.kerase key (entries.filter fun entry => kept entry.1) := by
  cases mine : kept key with
  | false =>
      rw [filter_kerase_of_other kept mine, List.kerase_of_notMem_keys]
      intro present
      rcases List.exists_of_mem_keys present with ⟨value, listed⟩
      have := (List.mem_filter.mp listed).2
      rw [mine] at this
      cases this
  | true =>
      induction entries with
      | nil => rfl
      | cons entry entries ih =>
          by_cases same : key = entry.1
          · have keeps : kept entry.1 = true := by rw [← same, mine]
            rw [List.kerase_cons_eq same, List.filter_cons, if_pos keeps, List.kerase_cons_eq same]
          · rw [List.kerase_cons_ne same, List.filter_cons, List.filter_cons]
            split
            · rw [List.kerase_cons_ne same, ih]
            · exact ih

theorem dlookup_filter (kept : κ → Bool) {key : κ} (mine : kept key = true)
    (entries : List (Σ _ : κ, α)) :
    List.dlookup key (entries.filter fun entry => kept entry.1) = List.dlookup key entries := by
  induction entries with
  | nil => rfl
  | cons entry entries ih =>
      by_cases same : key = entry.1
      · rcases entry with ⟨_, value⟩
        rcases same with rfl
        rw [List.filter_cons, if_pos mine, List.dlookup_cons_eq, List.dlookup_cons_eq]
      · rw [List.dlookup_cons_ne _ _ same, List.filter_cons]
        split
        · rw [List.dlookup_cons_ne _ _ same, ih]
        · exact ih

end Entries

namespace MemoryMetadataStore

def isKeyOf (ns : NamespaceId) (key : NamespaceId × BlobId) : Bool :=
  decide (key.1 = ns)

/-- The entries of one namespace, in the order of the store. -/
def entriesOf (store : MemoryMetadataStore) (ns : NamespaceId) :
    List (Σ _ : NamespaceId × BlobId, Manifest) :=
  store.manifests.entries.filter fun entry => isKeyOf ns entry.1

variable {store other : MemoryMetadataStore} {ns : NamespaceId}

theorem getManifest_eq_dlookup (store : MemoryMetadataStore) (ns : NamespaceId)
    (blobId : BlobId) :
    store.getManifest ns blobId = List.dlookup (ns, blobId) (store.entriesOf ns) :=
  (dlookup_filter (isKeyOf ns) (by simp [isKeyOf]) _).symm

theorem listBlobs_eq_map (store : MemoryMetadataStore) (ns : NamespaceId) :
    store.listBlobs ns = (store.entriesOf ns).map fun entry => entry.1.2 := by
  rw [listBlobs, entriesOf, AList.keys, List.keys, List.filter_map, List.map_map]
  rfl

theorem namespaceUsage_eq_foldl (store : MemoryMetadataStore) (ns : NamespaceId) :
    store.namespaceUsage ns = (store.entriesOf ns).foldl (countUsage ns) ⟨0, 0⟩ := by
  have skips : ∀ (entries : List (Σ _ : NamespaceId × BlobId, Manifest)) (usage : NamespaceUsage),
      entries.foldl (countUsage ns) usage =
        (entries.filter fun entry => isKeyOf ns entry.1).foldl (countUsage ns) usage := by
    intro entries
    induction entries with
    | nil => exact fun _ => rfl
    | cons entry entries ih =>
        intro usage
        by_cases mine : entry.1.1 = ns
        · rw [List.filter_cons_of_pos (by simpa [isKeyOf] using mine), List.foldl_cons,
            List.foldl_cons, ih]
        · rw [List.filter_cons_of_neg (by simpa [isKeyOf] using mine), List.foldl_cons, ih]
          simp [countUsage, mine]
  exact skips _ _

theorem entriesOf_putManifest (store : MemoryMetadataStore) (manifest : Manifest) :
    (store.putManifest manifest).entriesOf manifest.ns =
      List.kinsert (manifest.ns, manifest.blobId) manifest (store.entriesOf manifest.ns) := by
  rw [entriesOf, putManifest, AList.entries_insert, List.filter_cons_of_pos (by simp [isKeyOf]),
    List.kinsert_def]
  exact congrArg _ (filter_kerase (isKeyOf manifest.ns) _ _)

theorem entriesOf_putManifest_of_ne {manifest : Manifest} (apart : manifest.ns ≠ ns) :
    (store.putManifest manifest).entriesOf ns = store.entriesOf ns := by
  have other : isKeyOf ns (manifest.ns, manifest.blobId) = false := by
    simpa [isKeyOf] using apart
  rw [entriesOf, putManifest, AList.entries_insert, List.filter_cons_of_neg (by simp [other])]
  exact filter_kerase_of_other (isKeyOf ns) other _

theorem entriesOf_deleteManifest (store : MemoryMetadataStore) (ns : NamespaceId)
    (blobId : BlobId) :
    (store.deleteManifest ns blobId).entriesOf ns =
      List.kerase (ns, blobId) (store.entriesOf ns) :=
  filter_kerase (isKeyOf ns) _ _

theorem entriesOf_deleteManifest_of_ne {ns' : NamespaceId} (apart : ns' ≠ ns) (blobId : BlobId) :
    (store.deleteManifest ns' blobId).entriesOf ns = store.entriesOf ns :=
  filter_kerase_of_other (isKeyOf ns)
    (by simpa [isKeyOf] using apart) _

end MemoryMetadataStore

/-! ## What a tenant sees -/

/-- The choices at the picked times. -/
def Environment.resample (env : Environment) (pick : ℕ → ℕ) : Environment where
  clock tick := env.clock (pick tick)
  uuid tick := env.uuid (pick tick)
  blobOrder tick := env.blobOrder (pick tick)
  blobOrder_perm tick := env.blobOrder_perm (pick tick)
  namespaceOrder tick := env.namespaceOrder (pick tick)
  namespaceOrder_perm tick := env.namespaceOrder_perm (pick tick)
  fetch tick := env.fetch (pick tick)
  send tick := env.send (pick tick)
  signature := env.signature
  accepts := env.accepts

/-- The two worlds are the same as far as requests on `ns` can see. -/
structure SeesOwn (ns : NamespaceId) (state seen : World ShardMap) (trace : Trace) : Prop where
  entries : state.store.entriesOf ns = seen.store.entriesOf ns
  contracts : state.store.contracts = seen.store.contracts
  namespaces : state.store.namespaces = seen.store.namespaces
  signed : state.signed = seen.signed
  shards : ∀ ref, ref.ns = ns → state.anchor ref = seen.anchor ref
  keyed : state.store.Keyed
  read : ∀ index ns' key manifest,
    (index, ⟨.getManifest ns' key, .ok (some manifest)⟩) ∈ trace → manifest.ns = ns'

theorem MemoryMetadataStore.Keyed.after {store : MemoryMetadataStore} (keyed : store.Keyed)
    (call : PortCall) : (store.after call).Keyed := by
  intro ns blobId manifest found
  rcases getManifest_after found with before | ⟨-, sameNs, sameBlob⟩
  · exact keyed ns blobId manifest before
  · exact ⟨sameNs, sameBlob⟩

section Steps

variable {env : Environment} {ns ns' : NamespaceId} {state seen : World ShardMap} {trace : Trace}
  {index : ℕ} {call : PortCall}

theorem SeesOwn.keyed_after (sees : SeesOwn ns state seen trace) (call : PortCall) :
    (state.after shardMap call).store.Keyed :=
  sees.keyed.after call

/-- A manifest which is read is in the namespace asked for. -/
theorem SeesOwn.read_after (sees : SeesOwn ns state seen trace) (index : ℕ) (call : PortCall) :
    ∀ other ns' key manifest, (other, ⟨.getManifest ns' key, .ok (some manifest)⟩) ∈
        trace ++ [(index, (⟨call, state.reply env shardMap call⟩ : PortExchange))] →
      manifest.ns = ns' := by
  intro other ns' key manifest present
  rcases mem_trace_append present with before | ⟨-, rfl, told⟩
  · exact sees.read other ns' key manifest before
  · exact (sees.keyed ns' key manifest (Except.ok.inj told).symm).1

/-- A manifest is written into the namespace which the request works on. -/
theorem SeesOwn.ns_of_put (sees : SeesOwn ns state seen trace) {manifest : Manifest}
    (inside : Local ns' (pastOf index trace) (.putManifest manifest)) : manifest.ns = ns' := by
  rcases inside with same | ⟨key, read, present, same⟩
  · exact same
  · rw [same]
    exact sees.read index ns' key read (mem_pastOf.mp present)

/-- What a request on another namespace does is not seen. -/
theorem SeesOwn.step_other (sees : SeesOwn ns state seen trace) (apart : ns' ≠ ns)
    (inside : Local ns' (pastOf index trace) call) :
    SeesOwn ns (state.after shardMap call) seen
      (trace ++ [(index, ⟨call, state.reply env shardMap call⟩)]) := by
  have keyed := sees.keyed_after call
  have read : ∀ other ns' key manifest, (other, ⟨.getManifest ns' key, .ok (some manifest)⟩) ∈
        trace ++ [(index, (⟨call, state.reply env shardMap call⟩ : PortExchange))] →
      manifest.ns = ns' := sees.read_after index call
  have written : ∀ manifest, call = .putManifest manifest → manifest.ns = ns' := by
    rintro manifest rfl
    exact sees.ns_of_put inside
  rcases sees with ⟨entries, contracts, namespaces, signed, shards, -, -⟩
  cases call with
  | putManifest manifest =>
      have elsewhere : manifest.ns ≠ ns := by
        rw [written manifest rfl]
        exact apart
      refine ⟨?_, contracts, namespaces, signed, shards, keyed, read⟩
      exact (MemoryMetadataStore.entriesOf_putManifest_of_ne elsewhere).trans entries
  | deleteManifest ns'' blobId =>
      rcases inside with rfl
      refine ⟨?_, contracts, namespaces, signed, shards, keyed, read⟩
      exact (MemoryMetadataStore.entriesOf_deleteManifest_of_ne apart blobId).trans entries
  | putShard ref bytes =>
      refine ⟨entries, contracts, namespaces, signed, ?_, keyed, read⟩
      intro other mine
      rw [← shards other mine]
      apply Function.update_of_ne
      rintro rfl
      exact apart (inside.1.symm.trans mine)
  | deleteBlob ns'' blobId =>
      refine ⟨entries, contracts, namespaces, signed, ?_, keyed, read⟩
      intro other mine
      rw [← shards other mine]
      apply if_neg
      rintro ⟨same, -⟩
      exact apart (inside.1.symm.trans (same.symm.trans mine))
  | sign _ | registerApp _ | createNamespace _ | listNamespaces => exact inside.elim
  | _ => exact ⟨entries, contracts, namespaces, signed, shards, keyed, read⟩

/-- What is asked about the own namespace has the same answer. -/
theorem SeesOwn.reply_eq (sees : SeesOwn ns state seen trace) {pick : ℕ → ℕ}
    (picked : pick seen.tick = state.tick) (inside : Local ns (pastOf index trace) call) :
    state.reply env shardMap call = seen.reply (env.resample pick) shardMap call := by
  cases call with
  | now => exact congrArg env.clock picked.symm
  | newId kind => exact congrArg (fun tick => env.freshId tick kind) picked.symm
  | verifySignature token =>
      change env.verify state.signed token = env.verify seen.signed token
      rw [sees.signed]
  | getContract app =>
      change Except.ok (state.store.contracts.lookup app) = .ok (seen.store.contracts.lookup app)
      rw [sees.contracts]
  | getNamespace id =>
      change Except.ok (state.store.namespaces.lookup id) = .ok (seen.store.namespaces.lookup id)
      rw [sees.namespaces]
  | namespaceUsage id =>
      rcases inside with rfl
      change Except.ok (state.store.namespaceUsage id) = .ok (seen.store.namespaceUsage id)
      rw [MemoryMetadataStore.namespaceUsage_eq_foldl, sees.entries,
        ← MemoryMetadataStore.namespaceUsage_eq_foldl]
  | getManifest ns' blobId =>
      rcases inside with rfl
      change Except.ok (state.store.getManifest ns' blobId) =
        .ok (seen.store.getManifest ns' blobId)
      rw [MemoryMetadataStore.getManifest_eq_dlookup, sees.entries,
        ← MemoryMetadataStore.getManifest_eq_dlookup]
  | listBlobs id =>
      rcases inside with rfl
      change Except.ok (env.blobOrder state.tick (state.store.listBlobs id)) =
        .ok (env.blobOrder (pick seen.tick) (seen.store.listBlobs id))
      rw [picked, MemoryMetadataStore.listBlobs_eq_map, sees.entries,
        ← MemoryMetadataStore.listBlobs_eq_map]
  | getShard ref =>
      change state.anchor.read ref = seen.anchor.read ref
      rw [ShardMap.read, ShardMap.read, sees.shards ref inside.1]
  | sendShard peer ref bytes => exact congrArg (env.send · peer ref bytes) picked.symm
  | fetchShard peer ref => exact congrArg (env.fetch · peer ref) picked.symm
  | sign _ | registerApp _ | createNamespace _ | listNamespaces => exact inside.elim
  | putManifest _ | deleteManifest _ _ | putShard _ _ | deleteBlob _ _ => rfl

/-- A request on the own namespace changes the same of what is seen. -/
theorem SeesOwn.step_own (sees : SeesOwn ns state seen trace)
    (inside : Local ns (pastOf index trace) call) :
    SeesOwn ns (state.after shardMap call) (seen.after shardMap call)
      (trace ++ [(index, ⟨call, state.reply env shardMap call⟩)]) := by
  have keyed := sees.keyed_after call
  have read : ∀ other ns' key manifest, (other, ⟨.getManifest ns' key, .ok (some manifest)⟩) ∈
        trace ++ [(index, (⟨call, state.reply env shardMap call⟩ : PortExchange))] →
      manifest.ns = ns' := sees.read_after index call
  have written : ∀ manifest, call = .putManifest manifest → manifest.ns = ns := by
    rintro manifest rfl
    exact sees.ns_of_put inside
  rcases sees with ⟨entries, contracts, namespaces, signed, shards, -, -⟩
  cases call with
  | putManifest manifest =>
      rcases written manifest rfl with rfl
      refine ⟨?_, contracts, namespaces, signed, shards, keyed, read⟩
      change (state.store.putManifest manifest).entriesOf _ =
        (seen.store.putManifest manifest).entriesOf _
      rw [MemoryMetadataStore.entriesOf_putManifest, MemoryMetadataStore.entriesOf_putManifest,
        entries]
  | deleteManifest ns' blobId =>
      rcases inside with rfl
      refine ⟨?_, contracts, namespaces, signed, shards, keyed, read⟩
      change (state.store.deleteManifest ns' blobId).entriesOf _ =
        (seen.store.deleteManifest ns' blobId).entriesOf _
      rw [MemoryMetadataStore.entriesOf_deleteManifest,
        MemoryMetadataStore.entriesOf_deleteManifest, entries]
  | putShard ref bytes =>
      refine ⟨entries, contracts, namespaces, signed, ?_, keyed, read⟩
      intro other mine
      change Function.update state.anchor ref (some bytes) other =
        Function.update seen.anchor ref (some bytes) other
      by_cases same : other = ref
      · subst same
        rw [Function.update_self, Function.update_self]
      · rw [Function.update_of_ne same, Function.update_of_ne same, shards other mine]
  | deleteBlob ns' blobId =>
      refine ⟨entries, contracts, namespaces, signed, ?_, keyed, read⟩
      intro other mine
      change state.anchor.erase ns' blobId other = seen.anchor.erase ns' blobId other
      rw [ShardMap.erase, ShardMap.erase, shards other mine]
  | sign _ | registerApp _ | createNamespace _ | listNamespaces => exact inside.elim
  | _ => exact ⟨entries, contracts, namespaces, signed, shards, keyed, read⟩

end Steps

/-! ## Runs -/

/-- The requests which work on `ns`. -/
def ownOf (ns : NamespaceId) (requests : List Request) (index : ℕ) : Bool :=
  requests[index]?.any fun request => decide (request.ns = ns)

theorem isolates_ownOf (env : Environment) (node : Node) (requests : List Request)
    (ns : NamespaceId) :
    System.Isolates (world env shardMap) (fun pick => world (env.resample pick) shardMap)
      World.tick World.tick (ownOf ns requests) (Request.localRules node requests)
      (SeesOwn ns) where
  advances _ _ := rfl
  advancesAlone _ _ _ := rfl
  others state seen trace index call sees other permitted := by
    rcases permitted with ⟨request, listed, -, inside⟩
    have apart : request.ns ≠ ns := by
      simpa [ownOf, listed] using other
    exact sees.step_other apart inside
  owns pick state seen trace index call sees mine permitted picked := by
    rcases permitted with ⟨request, listed, -, inside⟩
    have here : request.ns = ns := by
      simpa [ownOf, listed] using mine
    rw [here] at inside
    exact ⟨sees.reply_eq picked inside, sees.step_own inside⟩

/-- In any interleaving of requests on any namespaces, the requests on `ns` come as far, get the
same answers and leave their namespace as if only they had run, in the same order, with the
clock readings, fresh ids, listing orders and peers' answers of the times at which they ran. -/
theorem tenants_do_not_interfere (env : Environment) (node : Node) (requests : List Request)
    (ns : NamespaceId) {first : World ShardMap} (keyed : first.store.Keyed) (schedule : List ℕ) :
    let shared := System.exec (world env shardMap)
      (System.start first (requests.map (Request.program node))) schedule
    ∃ pick, StrictMono pick ∧
      let alone := System.exec (world (env.resample pick) shardMap)
        (System.start { first with tick := 0 } (requests.map (Request.program node)))
        (schedule.filter (ownOf ns requests))
      (∀ index, ownOf ns requests index = true →
        shared.programs[index]? = alone.programs[index]? ∧
          pastOf index shared.trace = pastOf index alone.trace) ∧
      shared.state.store.entriesOf ns = alone.state.store.entriesOf ns ∧
      ∀ ref, ref.ns = ns → shared.state.anchor ref = alone.state.anchor ref := by
  have initial : SeesOwn ns first { first with tick := 0 } [] :=
    ⟨rfl, rfl, rfl, rfl, fun _ _ => rfl, keyed, by simp⟩
  rcases (isolates_ownOf env node requests ns).alike_alone rfl initial
    (Request.obedient_start_local node requests first) schedule with ⟨pick, monotone, alike⟩
  exact ⟨pick, monotone, fun index mine => ⟨alike.programs index mine, alike.past index mine⟩,
    alike.states.entries, alike.states.shards⟩

def twoTenants : World ShardMap where
  store := (sampleStore ⟨10, 10⟩ ⟨1, 0⟩).createNamespace ⟨⟨"ns-2"⟩, ⟨"app-1"⟩⟩
  anchor _ := none
  signed := []
  tick := 0

/-- Each tenant puts a backup. -/
def tenantPuts : List Request :=
  [samplePut 7,
    .put ⟨false, [], ⟨none, false⟩⟩ ⟨"ns-2"⟩
      ⟨⟨⟨"app-1"⟩, ⟨"ns-2"⟩, .put, ⟨"nonce-2"⟩, ⟨2000⟩⟩, List.replicate 64 0⟩ (oneByte 9)]

def tenantTurns : List ℕ :=
  (List.replicate 12 [1, 0]).flatten

/-- Both are stored side by side; alone, with the ids of these times, the first is stored too. -/
theorem tenants_do_not_interfere_twoTenants :
    let shared := System.exec (world sampleEnvironment shardMap)
      (System.start twoTenants (tenantPuts.map (Request.program replicatingNode))) tenantTurns
    shared.state.store.listBlobs ⟨"ns-2"⟩ = [⟨"blob-10"⟩] ∧
      ∃ pick, StrictMono pick ∧ (System.exec (world (sampleEnvironment.resample pick) shardMap)
        (System.start { twoTenants with tick := 0 }
          (tenantPuts.map (Request.program replicatingNode)))
        (List.replicate 12 0)).state.store.listBlobs ⟨"ns-1"⟩ = [⟨"blob-11"⟩] := by
  have keyed : twoTenants.store.Keyed := by rintro _ _ _ ⟨⟩
  rcases tenants_do_not_interfere sampleEnvironment replicatingNode tenantPuts ⟨"ns-1"⟩ keyed
    tenantTurns with ⟨pick, monotone, -, entries, -⟩
  refine ⟨by decide +kernel, pick, monotone, ?_⟩
  have turns : tenantTurns.filter (ownOf ⟨"ns-1"⟩ tenantPuts) = List.replicate 12 0 := by
    decide
  rw [turns] at entries
  rw [MemoryMetadataStore.listBlobs_eq_map, ← entries, ← MemoryMetadataStore.listBlobs_eq_map]
  decide +kernel

end VaultMesh
