import VaultMesh.Coordinator
import VaultMesh.Durability

/-!
# Onboarding applications

What the registry of the coordinator guarantees, in every interleaving of
requests to it. Contracts enter by two routes: enrollment checks the erasure
parameters, and registration takes them from the body as they are. Namespaces
enter by three: two of them look up the application and draw a new id, and the
metadata endpoint stores the body as it is. The properties promised hold exactly
as long as the bodies of the unchecked routes are as the checked ones would
have made them.
-/

namespace VaultMesh

open Interaction Coding

abbrev Coordination (A : Type) := System ports Failure (World A)

/-- The coordinator as it starts, with an empty store. -/
def coordinatorStart {A : Type} (requests : List CoordinatorRequest) (anchor : A) (tick : ℕ) :
    Coordination A :=
  System.start ⟨MemoryMetadataStore.empty, anchor, [], tick⟩
    (requests.map CoordinatorRequest.program)

/-! ## Contracts -/

/-- Every contract in force has valid parameters, and blobs stored under it can be restored. -/
structure Honoured (env : Environment) (state : World ShardMap) : Prop where
  valid : ∀ app contract, state.store.getContract app = some contract → contract.erasure.Valid
  encodes : ∀ node : Node,
    (∀ app contract, state.store.getContract app = some contract →
      node.library.Fit contract.erasure) →
    ∀ app contract, state.store.getContract app = some contract →
    ∀ ciphertext : Slice, contract.quota.admits 0 0 (PutBackup.sliceLen ciphertext) →
      ∃ shards, (reedSolomonCoder node.library).encode ciphertext.bytes contract.erasure =
        .ok shards
  restores : ∀ node : Node, CollisionFree node.sha256Hex →
    (∀ app contract, state.store.getContract app = some contract →
      node.library.Fit contract.erasure) →
    ∀ mesh ns token ciphertext blobId stored,
      ((node.put mesh).execute ns token ciphertext).run (world env shardMap) state =
        (.ok blobId, stored) →
      ∀ transport reader app,
        ((authorize ns reader .get).run (world env shardMap) stored).1 = .ok app →
        (((node.get transport).execute ns reader blobId).run (world env shardMap) stored).1 =
          .ok ciphertext.bytes

/-- Valid parameters are all that putting and getting need. -/
theorem honoured_of_valid {env : Environment} {state : World ShardMap}
    (valid : ∀ app contract, state.store.getContract app = some contract →
      contract.erasure.Valid) : Honoured env state := by
  refine ⟨valid, ?_, ?_⟩
  · intro node fit app contract known ciphertext _
    rcases ReedSolomonCoder.encode_ok contract.erasure (valid app contract known)
      (fit app contract known) ciphertext.bytes with ⟨shards, encoded, -⟩
    exact ⟨shards, encoded⟩
  · intro node collisionFree fit mesh ns token ciphertext blobId stored put transport reader app
      authorized
    have supported : ∀ app contract, state.store.getContract app = some contract →
        node.Supports contract :=
      fun app contract known => ⟨valid app contract known, fit app contract known⟩
    rcases PutBackup.execute_run supported put with ⟨manifest, word, recorded, holds, keeps⟩
    rcases restore_of_keeps env collisionFree holds recorded keeps (by simp) transport reader
      authorized with ⟨outcome, restored, same⟩
    rw [GetBackup.execute, Program.run_bind_of_ok (Prod.ext restored rfl), ← same]
    rfl

section Contracts

variable {env : Environment} {requests : List CoordinatorRequest} {anchor : ShardMap} {tick : ℕ}

theorem getContract_after {store : MemoryMetadataStore} {call : PortCall} {app : AppId}
    {contract : AppContract} (known : (store.after call).getContract app = some contract) :
    store.getContract app = some contract ∨ call = .registerApp contract := by
  cases call with
  | registerApp registered =>
      by_cases same : app = registered.appId
      · right
        subst same
        have stored : (store.registerApp registered).getContract registered.appId =
            some registered := AList.lookup_insert _
        rw [Option.some.inj (stored.symm.trans known)]
      · left
        rw [← MemoryMetadataStore.getContract_registerApp_of_ne store same]
        exact known
  | _ => exact Or.inl known

/-- Only valid bodies and checked parameters: then all contracts are valid at every moment. -/
theorem valid_contracts
    (bodies : ∀ body, CoordinatorRequest.registerApp body ∈ requests → body.erasure.Valid)
    (schedule : List ℕ) (app : AppId) (contract : AppContract)
    (known : (System.exec (world env shardMap) (coordinatorStart requests anchor tick)
      schedule).state.store.getContract app = some contract) : contract.erasure.Valid := by
  have start := CoordinatorRequest.obedient_start requests
    (⟨MemoryMetadataStore.empty, anchor, [], tick⟩ : World ShardMap)
  let valid : World ShardMap → List (ℕ × PortExchange) → Prop := fun state _ =>
    ∀ app contract, state.store.getContract app = some contract → contract.erasure.Valid
  have initially : valid ⟨MemoryMetadataStore.empty, anchor, [], tick⟩ [] := by
    intro app contract known
    cases known
  refine (start.exec initially ?_ schedule).2 app contract known
  intro state trace index call _ before permitted app contract known
  rcases getContract_after known with earlier | rfl
  · exact before app contract earlier
  · rcases permitted with ⟨request, listed, ⟨body, rfl, same⟩ | checked⟩
    · rw [same]
      exact bodies body (List.mem_of_getElem? listed)
    · exact checked

/-- The first two calls of a registration draw an id and store the contract. -/
theorem registered_contract {index : ℕ} {body : RegisterAppRequest}
    (listed : requests[index]? = some (.registerApp body)) :
    (System.exec (world env shardMap) (coordinatorStart requests anchor tick)
      [index, index]).state.store.getContract ⟨env.freshId tick "app"⟩ =
        some (AppContract.new ⟨env.freshId tick "app"⟩ body.quota body.retention
          body.erasure) := by
  let start : Coordination ShardMap := coordinatorStart requests anchor tick
  let contract := AppContract.new ⟨env.freshId tick "app"⟩ body.quota body.retention body.erasure
  have drawing : start.programs[index]? = some (.call (.newId "app") fun id =>
      (storeContract (AppContract.new ⟨id⟩ body.quota body.retention body.erasure) >>= fun _ =>
        pure (AppContract.new ⟨id⟩ body.quota body.retention body.erasure)).void) := by
    simp only [start, coordinatorStart, System.start, List.getElem?_map, listed, Option.map_some]
    rfl
  have storing : (System.step (world env shardMap) start index).programs[index]? =
      some (storeContract contract >>= fun _ => pure contract).void := by
    rw [System.step_of_call drawing]
    exact List.getElem?_set_self (List.getElem?_eq_some_iff.mp drawing).1
  have called : System.exec (world env shardMap) start [index, index] =
      System.afterCall (world env shardMap) (System.step (world env shardMap) start index) index
        (.registerApp contract) _ := System.step_of_call storing
  rw [called]
  exact AList.lookup_insert _

/--
In every interleaving of requests to a coordinator which starts empty, every contract in force
can be sharded and restored at every moment, exactly if every registration has valid parameters.
-/
theorem contracts_honoured_iff (env : Environment) (requests : List CoordinatorRequest)
    (anchor : ShardMap) (tick : ℕ) :
    (∀ schedule, Honoured env (System.exec (world env shardMap)
      (coordinatorStart requests anchor tick) schedule).state) ↔
      ∀ body, CoordinatorRequest.registerApp body ∈ requests → body.erasure.Valid := by
  constructor
  · intro honoured body present
    rcases List.mem_iff_getElem?.mp present with ⟨index, listed⟩
    exact (honoured [index, index]).valid _ _ (registered_contract listed)
  · intro bodies schedule
    exact honoured_of_valid (valid_contracts bodies schedule)

/-- Zero data shards: the body is well-formed, but the rule for parameters is broken. -/
def shardless : RegisterAppRequest :=
  ⟨"app", ⟨10, 10⟩, ⟨3, 30⟩, ⟨0, 3⟩⟩

/-- A registration without data shards is accepted, and a put under it divides by zero. -/
theorem registration_without_data_shards :
    let final := System.exec (world sampleEnvironment shardMap)
      (coordinatorStart [.registerApp shardless] (fun _ => none) 0) [0, 0]
    final.Ended 0 (.ok ()) ∧
    (∃ contract, final.state.store.getContract ⟨"app-0"⟩ = some contract ∧
      ¬contract.erasure.Valid ∧
      (reedSolomonCoder replication).encode [7] contract.erasure =
        .error (.panicked "attempt to divide by zero")) ∧
    ¬Honoured sampleEnvironment final.state := by
  intro final
  have stored : final.state.store.getContract ⟨"app-0"⟩ =
      some (AppContract.new ⟨"app-0"⟩ ⟨10, 10⟩ ⟨3, 30⟩ ⟨0, 3⟩) := rfl
  refine ⟨rfl, ⟨_, stored, by decide, rfl⟩, ?_⟩
  intro honoured
  exact absurd (honoured.valid _ _ stored) (by decide)

end Contracts

/-! ## Namespaces -/

/-- Nothing registered is lost, and every namespace keeps its owner. -/
structure MemoryMetadataStore.Extends (before after : MemoryMetadataStore) : Prop where
  contracts : ∀ app, (before.getContract app).isSome → (after.getContract app).isSome
  owners : ∀ id ns, before.getNamespace id = some ns →
    ∃ ns', after.getNamespace id = some ns' ∧ ns'.appId = ns.appId

namespace MemoryMetadataStore.Extends

variable {before between after : MemoryMetadataStore}

theorem refl (store : MemoryMetadataStore) : store.Extends store :=
  ⟨fun _ known => known, fun _ ns found => ⟨ns, found, rfl⟩⟩

theorem trans (first : before.Extends between) (second : between.Extends after) :
    before.Extends after := by
  refine ⟨fun app known => second.contracts app (first.contracts app known), ?_⟩
  intro id ns found
  rcases first.owners id ns found with ⟨ns', found', same⟩
  rcases second.owners id ns' found' with ⟨ns'', found'', same'⟩
  exact ⟨ns'', found'', same'.trans same⟩

/-- A call keeps the registry if a namespace it creates is not owned by another application. -/
theorem after_call {store : MemoryMetadataStore} {call : PortCall}
    (admitted : ∀ ns, call = .createNamespace ns →
      ∀ owned, store.getNamespace ns.id = some owned → owned.appId = ns.appId) :
    store.Extends (store.after call) := by
  cases call with
  | registerApp contract =>
      refine ⟨?_, fun _ ns found => ⟨ns, found, rfl⟩⟩
      intro app known
      by_cases same : app = contract.appId
      · subst same
        exact AList.lookup_isSome.mpr (AList.mem_insert _ |>.mpr (Or.inl rfl))
      · rw [MemoryMetadataStore.after,
          MemoryMetadataStore.getContract_registerApp_of_ne store same]
        exact known
  | createNamespace ns =>
      refine ⟨fun _ known => known, ?_⟩
      intro id owned found
      by_cases same : id = ns.id
      · subst same
        exact ⟨ns, store.getNamespace_createNamespace_self ns, (admitted ns rfl owned found).symm⟩
      · exact ⟨owned, (store.getNamespace_createNamespace_of_ne same).trans found, rfl⟩
  | _ => exact ⟨fun _ known => known, fun _ ns found => ⟨ns, found, rfl⟩⟩

end MemoryMetadataStore.Extends

/-- Ownership along a run: always backed by a contract, permanent, and respected by tokens. -/
structure OwnershipKept {A : Type} (reached : ℕ → Coordination A) : Prop where
  backed : ∀ steps id ns, (reached steps).state.store.getNamespace id = some ns →
    ((reached steps).state.store.getContract ns.appId).isSome
  permanent : ∀ earlier later, earlier ≤ later → ∀ id ns ns',
    (reached earlier).state.store.getNamespace id = some ns →
    (reached later).state.store.getNamespace id = some ns' → ns'.appId = ns.appId
  tokens : ∀ earlier later, earlier ≤ later → ∀ id ns index claims answer,
    (reached earlier).state.store.getNamespace id = some ns →
    (index, ⟨.sign claims, answer⟩) ∈ (reached later).trace → claims.ns = id →
    claims.appId = ns.appId

section Namespaces

variable {A : Type} {env : Environment} {anchors : AnchorModel A}
  {requests : List CoordinatorRequest} {system : Coordination A} {index : ℕ}

/-- A body which names a namespace names a registered application which may own it. -/
def Admissible (requests : List CoordinatorRequest) (system : Coordination A) (index : ℕ) : Prop :=
  ∀ body rest, requests[index]? = some (.metaCreateNamespace body) →
    system.programs[index]? = some (.call (.createNamespace body) rest) →
    (system.state.store.getContract body.appId).isSome ∧
      ∀ owned, system.state.store.getNamespace body.id = some owned → owned.appId = body.appId

/-- The id drawn for a namespace is not in use. -/
def FreshIds (requests : List CoordinatorRequest) (system : Coordination A) (index : ℕ) : Prop :=
  ∀ ns rest, requests[index]? ≠ some (.metaCreateNamespace ns) →
    system.programs[index]? = some (.call (.createNamespace ns) rest) →
    system.state.store.getNamespace ns.id = none

theorem getNamespace_after {store : MemoryMetadataStore} {call : PortCall} {id : NamespaceId}
    {ns : Namespace} (found : (store.after call).getNamespace id = some ns) :
    store.getNamespace id = some ns ∨ call = .createNamespace ns := by
  cases call with
  | createNamespace created =>
      by_cases same : id = created.id
      · right
        subst same
        rw [Option.some.inj ((store.getNamespace_createNamespace_self created).symm.trans found)]
      · left
        rw [← store.getNamespace_createNamespace_of_ne same]
        exact found
  | _ => exact Or.inl found

/-- What the requests have been told is still so. -/
structure Registry (system : Coordination A) : Prop where
  backed : ∀ id ns, system.state.store.getNamespace id = some ns →
    (system.state.store.getContract ns.appId).isSome
  known : ∀ index app contract, (index, ⟨.getContract app, .ok (some contract)⟩) ∈ system.trace →
    (system.state.store.getContract app).isSome
  owners : ∀ index id owned, (index, ⟨.getNamespace id, .ok (some owned)⟩) ∈ system.trace →
    ∃ ns, system.state.store.getNamespace id = some ns ∧ ns.appId = owned.appId
  signed : ∀ index claims answer, (index, ⟨.sign claims, answer⟩) ∈ system.trace →
    ∃ ns, system.state.store.getNamespace claims.ns = some ns ∧ ns.appId = claims.appId

section Step

variable {call : PortCall} {rest : call.Answer → UseCase Unit}

theorem extends_of_admissible (admissible : Admissible requests system index)
    (fresh : FreshIds requests system index)
    (found : system.programs[index]? = some (.call call rest)) :
    system.state.store.Extends (system.state.store.after call) := by
  apply MemoryMetadataStore.Extends.after_call
  rintro ns rfl owned owns
  by_cases body : requests[index]? = some (.metaCreateNamespace ns)
  · exact (admissible ns rest body found).2 owned owns
  · cases (fresh ns rest body found).symm.trans owns

theorem Registry.afterCall (registry : Registry system)
    (admissible : Admissible requests system index) (fresh : FreshIds requests system index)
    (found : system.programs[index]? = some (.call call rest))
    (permitted : CoordinatorRequest.rules requests index (pastOf index system.trace) call) :
    Registry (system.afterCall (world env anchors) index call rest) := by
  have kept := extends_of_admissible admissible fresh found
  refine ⟨?_, ?_, ?_, ?_⟩
  · intro id ns owned
    apply kept.contracts
    rcases getNamespace_after owned with before | rfl
    · exact registry.backed id ns before
    · rcases permitted with ⟨request, listed, rfl | ⟨contract, asked⟩⟩
      · exact (admissible ns rest listed found).1
      · exact registry.known index ns.appId contract (mem_pastOf.mp asked)
  · intro other app contract asked
    apply kept.contracts
    rcases mem_trace_append asked with before | ⟨-, rfl, answered⟩
    · exact registry.known other app contract before
    · have known : system.state.store.getContract app = some contract :=
        (Except.ok.inj answered).symm
      rw [known]
      rfl
  · intro other id owned asked
    have before : ∃ ns, system.state.store.getNamespace id = some ns ∧ ns.appId = owned.appId := by
      rcases mem_trace_append asked with before | ⟨-, rfl, answered⟩
      · exact registry.owners other id owned before
      · exact ⟨owned, (Except.ok.inj answered).symm, rfl⟩
    rcases before with ⟨ns, there, same⟩
    rcases kept.owners id ns there with ⟨ns', there', same'⟩
    exact ⟨ns', there', same'.trans same⟩
  · intro other claims answer signed
    have before : ∃ ns, system.state.store.getNamespace claims.ns = some ns ∧
        ns.appId = claims.appId := by
      rcases mem_trace_append signed with before | ⟨rfl, rfl, -⟩
      · exact registry.signed other claims answer before
      · rcases permitted with ⟨request, -, owned, asked, same⟩
        rcases registry.owners other claims.ns owned (mem_pastOf.mp asked) with
          ⟨ns, there, sameOwner⟩
        exact ⟨ns, there, sameOwner.trans same⟩
    rcases before with ⟨ns, there, same⟩
    rcases kept.owners claims.ns ns there with ⟨ns', there', same'⟩
    exact ⟨ns', there', same'.trans same⟩

end Step

/-- The invariant of a run, with what one step does to the registry. -/
theorem registry_step (obedient : System.Obedient (CoordinatorRequest.rules requests) system)
    (registry : Registry system) (admissible : Admissible requests system index)
    (fresh : FreshIds requests system index) :
    (System.Obedient (CoordinatorRequest.rules requests)
        (System.step (world env anchors) system index) ∧
      Registry (System.step (world env anchors) system index)) ∧
    system.state.store.Extends (System.step (world env anchors) system index).state.store := by
  rcases System.step_cases (world env anchors) system index with idle | ⟨call, rest, found, called⟩
  · rw [idle]
    exact ⟨⟨obedient, registry⟩, MemoryMetadataStore.Extends.refl _⟩
  · rw [called]
    exact ⟨⟨obedient.afterCall found,
      registry.afterCall admissible fresh found (obedient.permitted found)⟩,
      extends_of_admissible admissible fresh found⟩

theorem registry_start (requests : List CoordinatorRequest) (anchor : A) (tick : ℕ) :
    Registry (coordinatorStart requests anchor tick) := by
  constructor
  · intro id ns found
    cases found
  · intro index app contract asked
    cases asked
  · intro index id owned asked
    cases asked
  · intro index claims answer signed
    cases signed

section Run

variable {anchor : A} {tick : ℕ} {schedule : List ℕ}

/-- The coordinator after so many steps of the schedule. -/
def reachedBy (env : Environment) (anchors : AnchorModel A) (requests : List CoordinatorRequest)
    (anchor : A) (tick : ℕ) (schedule : List ℕ) (steps : ℕ) : Coordination A :=
  System.exec (world env anchors) (coordinatorStart requests anchor tick) (schedule.take steps)

theorem reachedBy_succ (env : Environment) (anchors : AnchorModel A)
    (requests : List CoordinatorRequest) (anchor : A) (tick : ℕ) (schedule : List ℕ) (steps : ℕ) :
    (∃ index, schedule[steps]? = some index ∧
      reachedBy env anchors requests anchor tick schedule (steps + 1) =
        System.step (world env anchors)
          (reachedBy env anchors requests anchor tick schedule steps) index) ∨
    reachedBy env anchors requests anchor tick schedule (steps + 1) =
      reachedBy env anchors requests anchor tick schedule steps := by
  cases next : schedule[steps]? with
  | some index => exact Or.inl ⟨index, rfl, System.exec_take_succ _ next⟩
  | none =>
      right
      rw [reachedBy, List.take_add_one, next, Option.toList_none, List.append_nil]
      rfl

variable (admissible : System.Along (world env anchors) (Admissible requests)
    (coordinatorStart requests anchor tick) schedule)
  (fresh : System.Along (world env anchors) (FreshIds requests)
    (coordinatorStart requests anchor tick) schedule)

include admissible fresh

theorem registry_reached (steps : ℕ) :
    System.Obedient (CoordinatorRequest.rules requests)
        (reachedBy env anchors requests anchor tick schedule steps) ∧
      Registry (reachedBy env anchors requests anchor tick schedule steps) := by
  induction steps with
  | zero =>
      exact ⟨CoordinatorRequest.obedient_start requests _, registry_start requests anchor tick⟩
  | succ steps ih =>
      rcases reachedBy_succ env anchors requests anchor tick schedule steps with
        ⟨index, next, stepped⟩ | same
      · rw [stepped]
        exact (registry_step ih.1 ih.2 (System.along_iff.mp admissible steps index next)
          (System.along_iff.mp fresh steps index next)).1
      · rw [same]
        exact ih

theorem extends_reached {earlier later : ℕ} (ordered : earlier ≤ later) :
    (reachedBy env anchors requests anchor tick schedule earlier).state.store.Extends
      (reachedBy env anchors requests anchor tick schedule later).state.store := by
  induction later, ordered using Nat.le_induction with
  | base => exact MemoryMetadataStore.Extends.refl _
  | succ later _ ih =>
      apply ih.trans
      rcases reachedBy_succ env anchors requests anchor tick schedule later with
        ⟨index, next, stepped⟩ | same
      · rw [stepped]
        have inv := registry_reached admissible fresh later
        exact (registry_step inv.1 inv.2 (System.along_iff.mp admissible later index next)
          (System.along_iff.mp fresh later index next)).2
      · rw [same]
        exact MemoryMetadataStore.Extends.refl _

theorem ownership_of_admissible :
    OwnershipKept (reachedBy env anchors requests anchor tick schedule) := by
  have owner : ∀ {earlier later}, earlier ≤ later → ∀ {id ns ns'},
      (reachedBy env anchors requests anchor tick schedule earlier).state.store.getNamespace id =
        some ns →
      (reachedBy env anchors requests anchor tick schedule later).state.store.getNamespace id =
        some ns' → ns'.appId = ns.appId := by
    intro earlier later ordered id ns ns' before after
    rcases (extends_reached admissible fresh ordered).owners id ns before with
      ⟨still, there, same⟩
    rcases Option.some.inj (there.symm.trans after) with rfl
    exact same
  refine ⟨?_, fun _ _ ordered _ _ _ before after => owner ordered before after, ?_⟩
  · intro steps
    exact (registry_reached admissible fresh steps).2.backed
  · rintro earlier later ordered id ns index claims answer before signed rfl
    rcases (registry_reached admissible fresh later).2.signed index claims answer signed with
      ⟨ns', after, same⟩
    rw [← same]
    exact owner ordered before after

end Run

/-- A body which the run admits without harm names what it may. -/
theorem admissible_of_ownership {anchor : A} {tick : ℕ} {schedule : List ℕ}
    (kept : OwnershipKept (reachedBy env anchors requests anchor tick schedule)) :
    System.Along (world env anchors) (Admissible requests)
      (coordinatorStart requests anchor tick) schedule := by
  rw [System.along_iff]
  intro steps index next body rest _ found
  have stepped : reachedBy env anchors requests anchor tick schedule (steps + 1) =
      System.afterCall (world env anchors)
        (reachedBy env anchors requests anchor tick schedule steps) index
        (.createNamespace body) rest :=
    (System.exec_take_succ _ next).trans (System.step_of_call found)
  have created : (reachedBy env anchors requests anchor tick schedule
      (steps + 1)).state.store.getNamespace body.id = some body := by
    rw [stepped]
    exact MemoryMetadataStore.getNamespace_createNamespace_self _ body
  constructor
  · have backed := kept.backed (steps + 1) body.id body created
    rw [stepped] at backed
    exact backed
  · intro owned before
    exact (kept.permanent steps (steps + 1) (Nat.le_succ _) body.id owned body before created).symm

/--
In every interleaving of requests to a coordinator which starts empty and draws fresh ids,
ownership is backed by contracts, permanent and respected by tokens, exactly if every body
stored by the metadata endpoint names a registered application which may own the namespace.
-/
theorem ownership_kept_iff (env : Environment) (anchors : AnchorModel A)
    (requests : List CoordinatorRequest) (anchor : A) (tick : ℕ) (schedule : List ℕ)
    (fresh : System.Along (world env anchors) (FreshIds requests)
      (coordinatorStart requests anchor tick) schedule) :
    OwnershipKept (reachedBy env anchors requests anchor tick schedule) ↔
      System.Along (world env anchors) (Admissible requests)
        (coordinatorStart requests anchor tick) schedule :=
  ⟨admissible_of_ownership, fun admissible => ownership_of_admissible admissible fresh⟩

end Namespaces

def sampleRegistration : CoordinatorRequest :=
  .registerApp ⟨"app", ⟨10, 10⟩, ⟨3, 30⟩, ⟨1, 2⟩⟩

/-- Two applications, a namespace of the first, and a body which names the namespace again. -/
def onboarding (owner : AppId) : List CoordinatorRequest :=
  [sampleRegistration, sampleRegistration, .createNamespace ⟨⟨"app-0"⟩⟩,
    .metaCreateNamespace ⟨⟨"ns-5"⟩, owner⟩, .issueCapability ⟨owner, ⟨"ns-5"⟩, .get, 60⟩]

def onboardingSchedule : List ℕ :=
  [0, 0, 1, 1, 2, 2, 2, 3, 4, 4, 4, 4]

/-- Storing a namespace again for its owner does no harm. -/
theorem ownership_kept_iff_restored :
    OwnershipKept (reachedBy sampleEnvironment noAnchor (onboarding ⟨"app-0"⟩) () 0
      onboardingSchedule) := by
  refine (ownership_kept_iff sampleEnvironment noAnchor (onboarding ⟨"app-0"⟩) () 0
    onboardingSchedule ?_).mpr ?_
  · iterate 6 refine ⟨by rintro ns rest _ ⟨⟩, ?_⟩
    refine ⟨?_, ?_, ?_⟩
    · rintro ns rest - ⟨⟩
      rfl
    · rintro ns rest other ⟨⟩
      exact absurd rfl other
    · iterate 4 refine ⟨by rintro ns rest _ ⟨⟩, ?_⟩
      exact trivial
  · iterate 7 refine ⟨by rintro body rest ⟨⟩, ?_⟩
    refine ⟨?_, ?_⟩
    · rintro body rest ⟨⟩ _
      refine ⟨rfl, ?_⟩
      rintro owned ⟨⟩
      rfl
    · iterate 4 refine ⟨by rintro body rest ⟨⟩, ?_⟩
      exact trivial

/-- The metadata endpoint gives a namespace to another application, which gets a token for it. -/
theorem namespace_taken_over :
    (reachedBy sampleEnvironment noAnchor (onboarding ⟨"app-2"⟩) () 0 onboardingSchedule
      7).state.store.getNamespace ⟨"ns-5"⟩ = some ⟨⟨"ns-5"⟩, ⟨"app-0"⟩⟩ ∧
    (reachedBy sampleEnvironment noAnchor (onboarding ⟨"app-2"⟩) () 0 onboardingSchedule
      8).state.store.getNamespace ⟨"ns-5"⟩ = some ⟨⟨"ns-5"⟩, ⟨"app-2"⟩⟩ ∧
    (∃ claims answer, (4, ⟨.sign claims, answer⟩) ∈ (reachedBy sampleEnvironment noAnchor
      (onboarding ⟨"app-2"⟩) () 0 onboardingSchedule 12).trace ∧
      claims.ns = ⟨"ns-5"⟩ ∧ claims.appId = ⟨"app-2"⟩) ∧
    ¬OwnershipKept (reachedBy sampleEnvironment noAnchor (onboarding ⟨"app-2"⟩) () 0
      onboardingSchedule) := by
  refine ⟨rfl, rfl, ⟨_, _, List.mem_of_getElem? (i := 11) rfl, rfl, rfl⟩, ?_⟩
  intro kept
  have same := kept.permanent 7 8 (by decide) ⟨"ns-5"⟩ ⟨⟨"ns-5"⟩, ⟨"app-0"⟩⟩
    ⟨⟨"ns-5"⟩, ⟨"app-2"⟩⟩ rfl rfl
  exact absurd same (by decide)

end VaultMesh
