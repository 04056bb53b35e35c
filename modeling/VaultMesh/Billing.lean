import VaultMesh.Quota

/-!
# Billing

A statement has one line for every namespace of the application. Its counters
are 64 bits wide and are added up without checks, in whatever order the store
lists the namespaces, so they are the true sums modulo their width. The price is
multiplied before it is divided, and the product saturates: from about 838 TiB
on the estimate no longer grows.
-/

namespace VaultMesh

open Interaction

/-! ## What an application stores -/

namespace MemoryMetadataStore

def owns (store : MemoryMetadataStore) (app : AppId) (ns : NamespaceId) : Bool :=
  decide ((store.getNamespace ns).map Namespace.appId = some app)

def namespacesOf (store : MemoryMetadataStore) (app : AppId) : List NamespaceId :=
  store.listNamespaces.filter (store.owns app)

/-- The true length of all ciphertexts in the application's namespaces. -/
def billedBytes (store : MemoryMetadataStore) (app : AppId) : ℕ :=
  ((store.namespacesOf app).map fun ns => (store.lengthsIn ns).sum).sum

def billedObjects (store : MemoryMetadataStore) (app : AppId) : ℕ :=
  ((store.namespacesOf app).map fun ns => (store.lengthsIn ns).length).sum

/-- The line of a namespace, as its counters say. -/
def lineOf (store : MemoryMetadataStore) (ns : NamespaceId) : NamespaceLine :=
  ⟨ns, (store.namespaceUsage ns).bytes, (store.namespaceUsage ns).objects⟩

variable {store : MemoryMetadataStore} {app : AppId} {ns : NamespaceId}

theorem owns_eq_true_iff :
    store.owns app ns = true ↔ ∃ owned, store.getNamespace ns = some owned ∧ owned.appId = app := by
  rw [owns, decide_eq_true_eq, Option.map_eq_some_iff]

theorem mem_namespacesOf :
    ns ∈ store.namespacesOf app ↔
      ∃ owned, store.getNamespace ns = some owned ∧ owned.appId = app := by
  rw [namespacesOf, List.mem_filter, owns_eq_true_iff]
  constructor
  · exact And.right
  · rintro ⟨owned, found, owner⟩
    have known : (store.namespaces.lookup ns).isSome := Option.isSome_of_mem found
    exact ⟨AList.lookup_isSome.mp known, owned, found, owner⟩

theorem nodup_namespacesOf : (store.namespacesOf app).Nodup :=
  store.namespaces.keys_nodup.filter _

end MemoryMetadataStore

/-! ## The report -/

namespace UsageReport

variable {A : Type} {env : Environment} {anchors : AnchorModel A}

theorem collectLines_of_not_owned {app : AppId} {ns : NamespaceId} {state : World A}
    (foreign : state.store.owns app ns = false) (rest : List NamespaceId)
    (totalBytes totalObjects : UInt64) :
    (collectLines app (ns :: rest) totalBytes totalObjects).run (world env anchors) state =
      (collectLines app rest totalBytes totalObjects).run (world env anchors)
        (state.after anchors (.getNamespace ns)) := by
  have asked : (getNamespace ns).run (world env anchors) state =
      (.ok (state.store.getNamespace ns), state.after anchors (.getNamespace ns)) := rfl
  rw [collectLines, Program.run_bind_of_ok asked]
  cases found : state.store.getNamespace ns with
  | none => rfl
  | some owned =>
      have different : owned.appId ≠ app := by
        simpa [MemoryMetadataStore.owns, found] using foreign
      simp only [different, if_false]

theorem collectLines_of_owned {app : AppId} {ns : NamespaceId} {rest : List NamespaceId}
    {totalBytes totalObjects bytes objects : UInt64} {lines : List NamespaceLine}
    {state last : World A} (owned : state.store.owns app ns = true)
    (ran : (collectLines app rest (totalBytes + (state.store.namespaceUsage ns).bytes)
        (totalObjects + (state.store.namespaceUsage ns).objects)).run (world env anchors)
        ((state.after anchors (.getNamespace ns)).after anchors (.namespaceUsage ns)) =
      (.ok (lines, bytes, objects), last)) :
    (collectLines app (ns :: rest) totalBytes totalObjects).run (world env anchors) state =
      (.ok (state.store.lineOf ns :: lines, bytes, objects), last) := by
  rcases MemoryMetadataStore.owns_eq_true_iff.mp owned with ⟨record, found, owner⟩
  have asked : (getNamespace ns).run (world env anchors) state =
      (.ok (some record), state.after anchors (.getNamespace ns)) := by
    change ((.ok (state.store.getNamespace ns) : Except Failure _),
      state.after anchors (.getNamespace ns)) = _
    rw [found]
  have measured : (namespaceUsage ns).run (world env anchors)
      (state.after anchors (.getNamespace ns)) = (.ok (state.store.namespaceUsage ns),
        (state.after anchors (.getNamespace ns)).after anchors (.namespaceUsage ns)) := rfl
  rw [collectLines, Program.run_bind_of_ok asked]
  simp only [owner, if_true]
  rw [Program.run_bind_of_ok measured, Program.run_bind_of_ok ran]
  rfl

/-- Every namespace of the application gets its line and is counted into the totals. -/
theorem collectLines_run (env : Environment) (anchors : AnchorModel A) (app : AppId)
    (namespaces : List NamespaceId) (totalBytes totalObjects : UInt64) (state : World A) :
    ∃ bytes objects last,
      (collectLines app namespaces totalBytes totalObjects).run (world env anchors) state =
        (.ok ((namespaces.filter (state.store.owns app)).map state.store.lineOf, bytes, objects),
          last) ∧
      bytes.toNat = (totalBytes.toNat + ((namespaces.filter (state.store.owns app)).map
        fun ns => (state.store.lengthsIn ns).sum).sum) % 2 ^ 64 ∧
      objects.toNat = (totalObjects.toNat + ((namespaces.filter (state.store.owns app)).map
        fun ns => (state.store.lengthsIn ns).length).sum) % 2 ^ 64 := by
  induction namespaces generalizing totalBytes totalObjects state with
  | nil =>
      have fewBytes := totalBytes.toNat_lt
      have fewObjects := totalObjects.toNat_lt
      refine ⟨totalBytes, totalObjects, state, rfl, ?_, ?_⟩ <;>
        simp only [List.filter_nil, List.map_nil, List.sum_nil] <;>
        omega
  | cons ns rest ih =>
      cases owned : state.store.owns app ns with
      | false =>
          rw [collectLines_of_not_owned owned, List.filter_cons_of_neg (by simp [owned])]
          exact ih totalBytes totalObjects (state.after anchors (.getNamespace ns))
      | true =>
          let usage := state.store.namespaceUsage ns
          rcases ih (totalBytes + usage.bytes) (totalObjects + usage.objects)
            ((state.after anchors (.getNamespace ns)).after anchors (.namespaceUsage ns)) with
            ⟨bytes, objects, last, ran, sumBytes, sumObjects⟩
          rcases state.store.toNat_namespaceUsage ns with ⟨usedBytes, usedObjects⟩
          refine ⟨bytes, objects, last, ?_, ?_, ?_⟩
          · rw [collectLines_of_owned owned ran, List.filter_cons_of_pos owned]
            rfl
          · rw [sumBytes, UInt64.toNat_add, usedBytes, List.filter_cons_of_pos owned,
              List.map_cons, List.sum_cons]
            change (_ + ((rest.filter (state.store.owns app)).map
              fun ns => (state.store.lengthsIn ns).sum).sum) % 2 ^ 64 = _
            omega
          · rw [sumObjects, UInt64.toNat_add, usedObjects, List.filter_cons_of_pos owned,
              List.map_cons, List.sum_cons]
            change (_ + ((rest.filter (state.store.owns app)).map
              fun ns => (state.store.lengthsIn ns).length).sum) % 2 ^ 64 = _
            omega

/-- The statement of a registered application, with its totals modulo the width of a counter. -/
theorem execute_run (env : Environment) (anchors : AnchorModel A) {app : AppId}
    {contract : AppContract} {state : World A}
    (registered : state.store.getContract app = some contract) :
    ∃ (namespaces : List NamespaceId) (bytes objects : UInt64),
      ((execute app).run (world env anchors) state).1 =
        .ok ⟨app, namespaces.map state.store.lineOf, bytes, objects, contract.quota.maxBytes,
          saturatingMul bytes microsPerGib / bytesPerGib⟩ ∧
      namespaces.Perm (state.store.namespacesOf app) ∧
      bytes.toNat = state.store.billedBytes app % 2 ^ 64 ∧
      objects.toNat = state.store.billedObjects app % 2 ^ 64 := by
  let asked := state.after anchors (.getContract app)
  let listed := asked.after anchors .listNamespaces
  let order := env.namespaceOrder asked.tick state.store.listNamespaces
  have askedRun :
      (getContract app).run (world env anchors) state = (.ok (some contract), asked) := by
    change ((.ok (state.store.getContract app) : Except Failure _), asked) = _
    rw [registered]
  have listedRun : listNamespaces.run (world env anchors) asked = (.ok order, listed) := rfl
  rcases collectLines_run env anchors app order 0 0 listed with
    ⟨bytes, objects, last, ran, sumBytes, sumObjects⟩
  have sameOwned : (order.filter (state.store.owns app)).Perm (state.store.namespacesOf app) :=
    (env.namespaceOrder_perm asked.tick state.store.listNamespaces).filter _
  refine ⟨order.filter (state.store.owns app), bytes, objects, ?_, sameOwned, ?_, ?_⟩
  · rw [execute, Program.run_bind_of_ok askedRun, okOr_some, pure_bind,
      Program.run_bind_of_ok listedRun, Program.run_bind_of_ok ran]
    rfl
  · rw [sumBytes, MemoryMetadataStore.billedBytes, ← (sameOwned.map _).sum_eq, UInt64.toNat_zero,
      Nat.zero_add]
    rfl
  · rw [sumObjects, MemoryMetadataStore.billedObjects, ← (sameOwned.map _).sum_eq,
      UInt64.toNat_zero, Nat.zero_add]
    rfl

/-! ## The price -/

theorem toNat_estimate (total : UInt64) :
    (saturatingMul total microsPerGib / bytesPerGib).toNat =
      min (total.toNat * 20000) (2 ^ 64 - 1) / 2 ^ 30 := by
  rw [UInt64.toNat_div, toNat_saturatingMul]
  rfl

/-- The estimate is the price exactly as long as the product does not saturate. -/
theorem estimate_exact_iff (total : UInt64) :
    (saturatingMul total microsPerGib / bytesPerGib).toNat = total.toNat * 20000 / 2 ^ 30 ↔
      total.toNat * 20000 < 2 ^ 64 := by
  rw [toNat_estimate]
  omega

theorem estimate_mono {less more : UInt64} (ordered : less ≤ more) :
    saturatingMul less microsPerGib / bytesPerGib ≤
      saturatingMul more microsPerGib / bytesPerGib := by
  rw [UInt64.le_iff_toNat_le] at ordered ⊢
  rw [toNat_estimate, toNat_estimate]
  omega

end UsageReport

/-! ## Exact statements -/

/-- A statement which says exactly what the store holds for the application. -/
structure UsageStatement.Exact (statement : UsageStatement) (store : MemoryMetadataStore)
    (app : AppId) : Prop where
  once : (statement.lines.map NamespaceLine.ns).Nodup
  owned : ∀ ns, ns ∈ statement.lines.map NamespaceLine.ns ↔
    ∃ owned, store.getNamespace ns = some owned ∧ owned.appId = app
  bytes : ∀ line ∈ statement.lines, line.bytes.toNat = (store.lengthsIn line.ns).sum
  objects : ∀ line ∈ statement.lines, line.objects.toNat = (store.lengthsIn line.ns).length
  totalBytes : statement.totalBytes.toNat = (statement.lines.map fun line => line.bytes.toNat).sum
  totalObjects :
    statement.totalObjects.toNat = (statement.lines.map fun line => line.objects.toNat).sum
  cost : statement.estimatedCostMicros.toNat = statement.totalBytes.toNat * 20000 / 2 ^ 30

section Statements

variable {A : Type} {env : Environment} {anchors : AnchorModel A} {state : World A} {app : AppId}
  {contract : AppContract} {statement : UsageStatement}

/-- The report of an application is this statement. -/
def Reports (env : Environment) (anchors : AnchorModel A) (state : World A) (app : AppId)
    (statement : UsageStatement) : Prop :=
  ((UsageReport.execute app).run (world env anchors) state).1 = .ok statement

theorem Reports.registered (reported : Reports env anchors state app statement) :
    ∃ contract, state.store.getContract app = some contract := by
  cases found : state.store.getContract app with
  | some contract => exact ⟨contract, rfl⟩
  | none =>
      have asked : (getContract app).run (world env anchors) state =
          (.ok none, state.after anchors (.getContract app)) := by
        change ((.ok (state.store.getContract app) : Except Failure _), _) = _
        rw [found]
        rfl
      rw [Reports, UsageReport.execute, Program.run_bind_of_ok asked, okOr_none] at reported
      cases reported

theorem Reports.cost_eq (reported : Reports env anchors state app statement) :
    statement.estimatedCostMicros =
      saturatingMul statement.totalBytes UsageReport.microsPerGib / UsageReport.bytesPerGib := by
  rcases reported.registered with ⟨contract, registered⟩
  rcases UsageReport.execute_run env anchors registered with ⟨namespaces, bytes, objects, ran, -⟩
  rcases Except.ok.inj (ran.symm.trans reported) with rfl
  rfl

/-- A statement over more bytes never costs less, exact or not. -/
theorem Reports.cost_mono {state' : World A} {app' : AppId} {statement' : UsageStatement}
    (reported : Reports env anchors state app statement)
    (reported' : Reports env anchors state' app' statement')
    (ordered : statement.totalBytes ≤ statement'.totalBytes) :
    statement.estimatedCostMicros ≤ statement'.estimatedCostMicros := by
  rw [reported.cost_eq, reported'.cost_eq]
  exact UsageReport.estimate_mono ordered

/-- The statement is exact up to its price as long as its totals fit the counters. -/
theorem Reports.exact (reported : Reports env anchors state app statement)
    (fewBytes : state.store.billedBytes app < 2 ^ 64)
    (fewObjects : state.store.billedObjects app < 2 ^ 64)
    (cheap : state.store.billedBytes app * 20000 < 2 ^ 64) :
    statement.Exact state.store app := by
  rcases reported.registered with ⟨contract, registered⟩
  rcases UsageReport.execute_run env anchors registered with
    ⟨namespaces, bytes, objects, ran, same, sumBytes, sumObjects⟩
  rcases Except.ok.inj (ran.symm.trans reported) with rfl
  have lines : (namespaces.map state.store.lineOf).map NamespaceLine.ns = namespaces := by
    rw [List.map_map]
    exact List.map_id namespaces
  have lineBytes : ∀ ns ∈ namespaces,
      (state.store.lineOf ns).bytes.toNat = (state.store.lengthsIn ns).sum := by
    intro ns listed
    have part : (state.store.lengthsIn ns).sum ≤ state.store.billedBytes app :=
      List.single_le_sum (fun _ _ => Nat.zero_le _) _
        (List.mem_map_of_mem (same.mem_iff.mp listed))
    rw [MemoryMetadataStore.lineOf, (state.store.toNat_namespaceUsage ns).1]
    omega
  have lineObjects : ∀ ns ∈ namespaces,
      (state.store.lineOf ns).objects.toNat = (state.store.lengthsIn ns).length := by
    intro ns listed
    have part : (state.store.lengthsIn ns).length ≤ state.store.billedObjects app :=
      List.single_le_sum (fun _ _ => Nat.zero_le _) _
        (List.mem_map_of_mem (same.mem_iff.mp listed))
    rw [MemoryMetadataStore.lineOf, (state.store.toNat_namespaceUsage ns).2]
    omega
  refine ⟨?_, ?_, ?_, ?_, ?_, ?_, ?_⟩
  · rw [lines]
    exact same.nodup_iff.mpr MemoryMetadataStore.nodup_namespacesOf
  · intro ns
    rw [lines, same.mem_iff, MemoryMetadataStore.mem_namespacesOf]
  · intro line listed
    rcases List.mem_map.mp listed with ⟨ns, inside, rfl⟩
    exact lineBytes ns inside
  · intro line listed
    rcases List.mem_map.mp listed with ⟨ns, inside, rfl⟩
    exact lineObjects ns inside
  · have total : bytes.toNat = state.store.billedBytes app := by
      rw [sumBytes, Nat.mod_eq_of_lt fewBytes]
    rw [List.map_map]
    exact total.trans ((congrArg List.sum (List.map_congr_left lineBytes)).trans
      (same.map _).sum_eq).symm
  · have total : objects.toNat = state.store.billedObjects app := by
      rw [sumObjects, Nat.mod_eq_of_lt fewObjects]
    rw [List.map_map]
    exact total.trans ((congrArg List.sum (List.map_congr_left lineObjects)).trans
      (same.map _).sum_eq).symm
  · apply (UsageReport.estimate_exact_iff bytes).mpr
    rwa [sumBytes, Nat.mod_eq_of_lt fewBytes]

/-- The exact total of an exact statement is what the store holds. -/
theorem UsageStatement.Exact.objects_eq (exact : statement.Exact state.store app) :
    statement.totalObjects.toNat = state.store.billedObjects app := by
  have same : (statement.lines.map NamespaceLine.ns).Perm (state.store.namespacesOf app) := by
    rw [List.perm_ext_iff_of_nodup exact.once MemoryMetadataStore.nodup_namespacesOf]
    intro ns
    rw [exact.owned, MemoryMetadataStore.mem_namespacesOf]
  rw [exact.totalObjects, List.map_congr_left exact.objects, MemoryMetadataStore.billedObjects,
    ← (same.map _).sum_eq, List.map_map]
  rfl

/-- The statement is exact, and statements over more bytes cost no less, exactly as long as the
price does not saturate and the objects can be counted. -/
theorem statement_exact_iff (env : Environment) (anchors : AnchorModel A)
    (registered : state.store.getContract app = some contract)
    (bounded : state.store.billedBytes app < 2 ^ 64) :
    (∃ statement, Reports env anchors state app statement ∧
      statement.Exact state.store app ∧
      ∀ state' app' statement', Reports env anchors state' app' statement' →
        statement.totalBytes ≤ statement'.totalBytes →
          statement.estimatedCostMicros ≤ statement'.estimatedCostMicros) ↔
    state.store.billedBytes app * 20000 < 2 ^ 64 ∧ state.store.billedObjects app < 2 ^ 64 := by
  rcases UsageReport.execute_run env anchors registered with
    ⟨namespaces, bytes, objects, ran, same, sumBytes, sumObjects⟩
  constructor
  · rintro ⟨statement, reported, exact, -⟩
    have counted := exact.objects_eq
    rcases Except.ok.inj (ran.symm.trans reported) with rfl
    constructor
    · have cheap := (UsageReport.estimate_exact_iff bytes).mp exact.cost
      rwa [sumBytes, Nat.mod_eq_of_lt bounded] at cheap
    · rw [← counted]
      exact objects.toNat_lt
  · rintro ⟨cheap, fewObjects⟩
    exact ⟨_, ran, Reports.exact ran bounded fewObjects cheap,
      fun _ _ _ reported' ordered => Reports.cost_mono ran reported' ordered⟩

end Statements

/-- Two manifests in one namespace of an application and one in another; a third namespace is
somebody else's. -/
def threeGibStore : MemoryMetadataStore :=
  let gib (blobId ns : String) := Manifest.new ⟨blobId⟩ ⟨ns⟩ ⟨1, 2⟩ [] UsageReport.bytesPerGib ⟨0⟩
  let namespaces := ((sampleStore ⟨10, 10⟩ ⟨0, 0⟩).createNamespace
    ⟨⟨"ns-2"⟩, ⟨"app-1"⟩⟩).createNamespace ⟨⟨"ns-3"⟩, ⟨"app-2"⟩⟩
  (((namespaces.putManifest (gib "blob-1" "ns-1")).putManifest (gib "blob-2" "ns-1")).putManifest
    (gib "blob-3" "ns-2")).putManifest (gib "blob-4" "ns-3")

def threeGibWorld : World Unit where
  store := threeGibStore
  anchor := ()
  signed := []
  tick := 0

theorem statement_exact_three_gib :
    threeGibWorld.store.billedBytes ⟨"app-1"⟩ = 3 * 2 ^ 30 ∧
      ∃ statement, Reports sampleEnvironment noAnchor threeGibWorld ⟨"app-1"⟩ statement ∧
        statement.Exact threeGibWorld.store ⟨"app-1"⟩ ∧
        ∀ state' app' statement', Reports sampleEnvironment noAnchor state' app' statement' →
          statement.totalBytes ≤ statement'.totalBytes →
            statement.estimatedCostMicros ≤ statement'.estimatedCostMicros := by
  refine ⟨by decide, ?_⟩
  exact (statement_exact_iff sampleEnvironment noAnchor
    (rfl : threeGibWorld.store.getContract ⟨"app-1"⟩ = some _) (by decide)).mpr
      ⟨by decide, by decide⟩

/-- An application whose only manifest records a ciphertext of so many GiB. -/
def billedWorld (gibibytes : UInt64) : World Unit where
  store := (sampleStore ⟨10, 10⟩ ⟨0, 0⟩).putManifest
    (Manifest.new ⟨"blob-1"⟩ ⟨"ns-1"⟩ ⟨1, 2⟩ [] (gibibytes * UsageReport.bytesPerGib) ⟨0⟩)
  anchor := ()
  signed := []
  tick := 0

/-- One PiB costs what 838 TiB would cost. -/
theorem statement_undercharges :
    (billedWorld 1048576).store.Built ∧
      (billedWorld 1048576).store.billedBytes ⟨"app-1"⟩ = 2 ^ 50 ∧
      ∃ statement, Reports sampleEnvironment noAnchor (billedWorld 1048576) ⟨"app-1"⟩ statement ∧
        statement.totalBytes.toNat = 2 ^ 50 ∧
        statement.estimatedCostMicros.toNat = 17179869183 ∧
        statement.totalBytes.toNat * 20000 / 2 ^ 30 = 20971520000 := by
  refine ⟨?_, by decide, _, rfl, by decide, by decide, by decide⟩
  exact .after (.putManifest _) (.after (.createNamespace _) (.after (.registerApp _) .empty))

end VaultMesh
