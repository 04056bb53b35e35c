import VaultMesh.Restore
import VaultMesh.Versions

/-!
# What a prune leaves

Without failures a prune removes the surplus of its object and nothing else. The
versions which survive are the newest `keep_versions` and those still under
hold. Where creation times are equal, the order of the listing decides which of
them count as the newest, and another prune may see another order. It removes
nothing nevertheless: if anything was held back, everything which is left is at
least as new and so still under hold.
-/

namespace VaultMesh

open Interaction Coding

/-- A newer blob is held at least as long. -/
theorem RetentionPolicy.holdElapsed_of_le (policy : RetentionPolicy) {older newer now : Timestamp}
    (order : older.millis ≤ newer.millis) (elapsed : policy.holdElapsed newer now = true) :
    policy.holdElapsed older now = true := by
  rw [holdElapsed_iff] at elapsed ⊢
  have numbers := UInt64.le_iff_toNat_le.mp order
  rcases elapsed with noHold | long
  · exact Or.inl noHold
  · right
    omega

namespace PruneVersions

variable {env : Environment} {state : World ShardMap} {ns : NamespaceId} {objectId : String}
  {retention : RetentionPolicy} {time : Timestamp} {keep : ℕ} {sorted : List Manifest}

/-! ## The run of a prune -/

theorem execute_run (clock : ∀ tick, env.clock tick = time) {owned : Namespace}
    {contract : AppContract} (owner : state.store.getNamespace ns = some owned)
    (terms : state.store.getContract owned.appId = some contract) :
    ∃ ticks, (execute ns objectId).run (world env shardMap) state =
      (.ok (verdict contract.retention time objectId (foundVersions env state ns objectId)).2,
        (state.ticked ticks).without ns
          (verdict contract.retention time objectId (foundVersions env state ns objectId)).1) := by
  have inspects : Inspects .none state ns owned contract :=
    ⟨Faults.works_none _, Faults.works_none _, Faults.works_none _, fun _ _ => Faults.works_none _,
      owner, terms⟩
  have planned : (plan ns objectId).run (faultyWorld env shardMap .none fun _ _ anchor => anchor)
      state = (.ok (verdict contract.retention time objectId
        (foundVersions env state ns objectId)), state.ticked (reads state ns contract.retention)) :=
    plan_run_ok_iff.mpr ⟨owned, contract, inspects, by rw [clock], rfl⟩
  rw [faultyWorld_none] at planned
  refine ⟨reads state ns contract.retention, ?_⟩
  rw [execute_eq, Program.run_bind_of_ok planned,
    Program.run_bind_of_ok (removeEach_run_unfailing _ _), Program.run_pure]

/-! ## The first ones and the others -/

theorem mem_surplus {version : Manifest} :
    version ∈ surplus retention time keep sorted ↔
      version ∈ sorted.drop keep ∧ retention.holdElapsed version.createdAt time = true := by
  simp [surplus, elapsedAt]

theorem mem_heldBack {version : Manifest} :
    version ∈ heldBack retention time keep sorted ↔
      version ∈ sorted.drop keep ∧ retention.holdElapsed version.createdAt time = false := by
  simp [heldBack, elapsedAt]

theorem heldBack_subset : heldBack retention time keep sorted ⊆ sorted :=
  List.Subset.trans (List.filter_subset_self _) (List.drop_subset keep sorted)

theorem length_surplus_add_heldBack :
    (surplus retention time keep sorted).length + (heldBack retention time keep sorted).length =
      sorted.length - keep := by
  have split := List.filter_append_perm (elapsedAt retention time) (sorted.drop keep)
  have lengths := split.length_eq
  rw [List.length_append, List.length_drop] at lengths
  exact lengths

/-- What is among the first is at least as new as what is not. -/
theorem newer_of_take {versions : List Manifest} {one other : Manifest}
    (first : one ∈ (newestFirst versions).take keep)
    (later : other ∈ (newestFirst versions).drop keep) :
    other.createdAt.millis ≤ one.createdAt.millis := by
  have order := newestFirst_sorted versions
  rw [← List.take_append_drop keep (newestFirst versions), List.pairwise_append] at order
  exact order.2.2 one first other later

/-! ## The outcome -/

/-- The blobs of the group. -/
def group (store : MemoryMetadataStore) (ns : NamespaceId) (objectId : String) : Finset BlobId :=
  ((store.listBlobs ns).filter fun blobId => (store.getManifest ns blobId).any fun version =>
    decide (version.objectId = some objectId)).toFinset

theorem mem_group {store : MemoryMetadataStore} (keyed : store.Keyed) {blobId : BlobId} :
    blobId ∈ group store ns objectId ↔
      ∃ version, InGroup store ns objectId version ∧ version.blobId = blobId := by
  simp only [group, List.mem_toFinset, List.mem_filter, MemoryMetadataStore.mem_listBlobs]
  constructor
  · rintro ⟨_, carries⟩
    rcases found : store.getManifest ns blobId with _ | version
    · simp [found] at carries
    · have same := (keyed _ _ _ found).2
      simp only [found, Option.any_some, decide_eq_true_eq] at carries
      exact ⟨version, ⟨by rw [same, found], carries⟩, same⟩
  · rintro ⟨version, inside, same⟩
    rw [← same, inside.1]
    simp [inside.2]

theorem mem_group_without (keyed : state.store.Keyed) {gone : List BlobId} {blobId : BlobId} :
    blobId ∈ group (state.without ns gone).store ns objectId ↔
      blobId ∈ group state.store ns objectId ∧ blobId ∉ gone := by
  rw [mem_group (keyed.without ns gone), mem_group keyed]
  simp only [inGroup_without]
  constructor
  · rintro ⟨version, ⟨inside, kept⟩, same⟩
    rw [same] at kept
    exact ⟨⟨version, inside, same⟩, kept⟩
  · rintro ⟨⟨version, inside, same⟩, kept⟩
    rw [← same] at kept
    exact ⟨version, ⟨inside, kept⟩, same⟩

/-- What a prune which keeps `keep` versions makes of the world, where `kept` are the newest and
`held` the others still under hold. -/
structure KeepsNewest (retention : RetentionPolicy) (time : Timestamp) (ns : NamespaceId)
    (objectId : String) (state last : World ShardMap) (kept held : Finset BlobId) : Prop where
  inside : kept ⊆ group state.store ns objectId
  card : kept.card = min retention.keepVersions.toNat (group state.store ns objectId).card
  newest : ∀ one other, InGroup state.store ns objectId one →
    InGroup state.store ns objectId other → one.blobId ∈ kept → other.blobId ∉ kept →
    other.createdAt.millis ≤ one.createdAt.millis
  held_iff : ∀ blobId, blobId ∈ held ↔ blobId ∉ kept ∧ ∃ version,
    InGroup state.store ns objectId version ∧ version.blobId = blobId ∧
      retention.holdElapsed version.createdAt time = false
  remaining : group last.store ns objectId = kept ∪ held
  removed : ∀ blobId ∈ group state.store ns objectId, blobId ∉ kept ∪ held →
    last.store.getManifest ns blobId = none ∧ ∀ index, last.anchor ⟨ns, blobId, index⟩ = none
  manifests : ∀ id blobId, ¬(id = ns ∧ blobId ∈ group state.store ns objectId \ (kept ∪ held)) →
    last.store.getManifest id blobId = state.store.getManifest id blobId
  shards : ∀ ref : ShardRef,
    ¬(ref.ns = ns ∧ ref.blobId ∈ group state.store ns objectId \ (kept ∪ held)) →
    last.anchor ref = state.anchor ref

/-- The ids of some versions. -/
def ids (versions : List Manifest) : Finset BlobId :=
  (versions.map Manifest.blobId).toFinset

/-- The list has every version of the group once. -/
structure Lists (store : MemoryMetadataStore) (ns : NamespaceId) (objectId : String)
    (versions : List Manifest) : Prop where
  mem_iff : ∀ version, version ∈ versions ↔ InGroup store ns objectId version
  nodup : (versions.map Manifest.blobId).Nodup

theorem lists_newestFirst (keyed : state.store.Keyed) :
    Lists state.store ns objectId (newestFirst (foundVersions env state ns objectId)) := by
  have perm := newestFirst_perm (foundVersions env state ns objectId)
  refine ⟨fun version => ?_, ?_⟩
  · rw [perm.mem_iff, mem_foundVersions keyed]
  · exact (perm.map _).nodup_iff.mpr (nodup_map_blobId_foundVersions keyed)

namespace Lists

variable {store : MemoryMetadataStore} (lists : Lists store ns objectId sorted)
include lists

theorem card_group (keyed : store.Keyed) : (group store ns objectId).card = sorted.length := by
  have same : group store ns objectId = ids sorted := by
    ext blobId
    rw [mem_group keyed, ids, List.mem_toFinset, List.mem_map]
    simp only [lists.mem_iff]
  rw [same, ids, List.toFinset_card_of_nodup lists.nodup, List.length_map]

/-- A version is in a part of the list exactly if its id is. -/
theorem mem_part {part : List Manifest} (sub : part ⊆ sorted) {version : Manifest}
    (inside : InGroup store ns objectId version) :
    version.blobId ∈ ids part ↔ version ∈ part := by
  rw [ids, List.mem_toFinset]
  constructor
  · intro present
    rcases List.mem_map.mp present with ⟨other, inPart, same⟩
    rcases ((lists.mem_iff other).mp (sub inPart)).eq_of_blobId inside same with rfl
    exact inPart
  · exact List.mem_map_of_mem

theorem ids_subset (keyed : store.Keyed) {part : List Manifest} (sub : part ⊆ sorted) :
    ids part ⊆ group store ns objectId := by
  intro blobId present
  rcases List.mem_map.mp (List.mem_toFinset.mp present) with ⟨version, inPart, same⟩
  exact (mem_group keyed).mpr ⟨version, (lists.mem_iff version).mp (sub inPart), same⟩

theorem not_mem_take_iff {version : Manifest} (inside : InGroup store ns objectId version) :
    version ∉ sorted.take keep ↔ version ∈ sorted.drop keep := by
  have nodup := lists.nodup.of_map
  have present := (lists.mem_iff version).mpr inside
  rw [← List.take_append_drop keep sorted] at present nodup
  have disjoint := List.disjoint_of_nodup_append nodup
  rcases List.mem_append.mp present with first | later
  · exact iff_of_false (fun outside => outside first) (disjoint first)
  · exact iff_of_true (fun first => disjoint first later) later

theorem mem_kept {version : Manifest} (inside : InGroup store ns objectId version) :
    version.blobId ∈ ids (sorted.take keep) ↔ version ∈ sorted.take keep :=
  lists.mem_part (List.take_subset keep sorted) inside

theorem mem_held {version : Manifest} (inside : InGroup store ns objectId version) :
    version.blobId ∈ ids (heldBack retention time keep sorted) ↔
      version.blobId ∉ ids (sorted.take keep) ∧
        retention.holdElapsed version.createdAt time = false := by
  rw [lists.mem_part heldBack_subset inside, mem_heldBack, lists.mem_kept inside,
    lists.not_mem_take_iff inside]

/-- What is removed is what is neither kept nor held. -/
theorem mem_surplus_iff (keyed : store.Keyed) {blobId : BlobId} :
    blobId ∈ (surplus retention time keep sorted).map Manifest.blobId ↔
      blobId ∈ group store ns objectId \
        (ids (sorted.take keep) ∪ ids (heldBack retention time keep sorted)) := by
  have sub : surplus retention time keep sorted ⊆ sorted :=
    List.Subset.trans (List.filter_subset_self _) (List.drop_subset keep sorted)
  have decided {version : Manifest} (inside : InGroup store ns objectId version) :
      version ∈ surplus retention time keep sorted ↔
        version.blobId ∉ ids (sorted.take keep) ∪ ids (heldBack retention time keep sorted) := by
    rw [mem_surplus, ← lists.not_mem_take_iff inside, Finset.mem_union, lists.mem_held inside,
      lists.mem_kept inside]
    cases retention.holdElapsed version.createdAt time <;> simp
  rw [Finset.mem_sdiff, mem_group keyed, List.mem_map]
  constructor
  · rintro ⟨version, present, same⟩
    have inside := (lists.mem_iff version).mp (sub present)
    rw [decided inside, same] at present
    exact ⟨⟨version, inside, same⟩, present⟩
  · rintro ⟨⟨version, inside, same⟩, outside⟩
    rw [← same, ← decided inside] at outside
    exact ⟨version, outside, same⟩

end Lists

theorem Lists.keepsNewest {versions : List Manifest} (keyed : state.store.Keyed)
    (lists : Lists state.store ns objectId (newestFirst versions)) (ticks : ℕ) :
    let keep := retention.keepVersions.toNat
    let sorted := newestFirst versions
    KeepsNewest retention time ns objectId state
      ((state.ticked ticks).without ns ((surplus retention time keep sorted).map Manifest.blobId))
      (ids (sorted.take keep)) (ids (heldBack retention time keep sorted)) := by
  intro keep sorted
  have lists : Lists state.store ns objectId sorted := lists
  have removed_iff (blobId : BlobId) :
      blobId ∈ (surplus retention time keep sorted).map Manifest.blobId ↔
        blobId ∈ group state.store ns objectId \
          (ids (sorted.take keep) ∪ ids (heldBack retention time keep sorted)) :=
    lists.mem_surplus_iff keyed
  refine ⟨?_, ?_, ?_, ?_, ?_, ?_, ?_, ?_⟩
  · exact lists.ids_subset keyed (List.take_subset keep sorted)
  · rw [lists.card_group keyed, ids, List.toFinset_card_of_nodup, List.length_map,
      List.length_take]
    exact ((List.take_sublist keep sorted).map _).nodup lists.nodup
  · intro one other inside insideToo kept notKept
    rw [lists.mem_kept inside] at kept
    rw [lists.mem_kept insideToo, lists.not_mem_take_iff insideToo] at notKept
    exact newer_of_take kept notKept
  · intro blobId
    constructor
    · intro held
      rcases List.mem_map.mp (List.mem_toFinset.mp held) with ⟨version, present, rfl⟩
      have inside := (lists.mem_iff version).mp (heldBack_subset present)
      rw [lists.mem_held inside] at held
      exact ⟨held.1, version, inside, rfl, held.2⟩
    · rintro ⟨notKept, version, inside, same, notElapsed⟩
      subst same
      exact (lists.mem_held inside).mpr ⟨notKept, notElapsed⟩
  · have survivors : ids (sorted.take keep) ∪ ids (heldBack retention time keep sorted) ⊆
        group state.store ns objectId :=
      Finset.union_subset (lists.ids_subset keyed (List.take_subset keep sorted))
        (lists.ids_subset keyed heldBack_subset)
    ext blobId
    rw [mem_group_without (by exact keyed), removed_iff, Finset.mem_sdiff, not_and_not_right]
    constructor
    · rintro ⟨inside, survives⟩
      exact survives inside
    · intro survives
      exact ⟨survivors survives, fun _ => survives⟩
  · intro blobId inside outside
    have doomed := (removed_iff blobId).mpr (Finset.mem_sdiff.mpr ⟨inside, outside⟩)
    refine ⟨?_, fun index => ?_⟩
    · rw [World.getManifest_without, if_pos ⟨rfl, doomed⟩]
    · rw [World.anchor_without, if_pos ⟨rfl, doomed⟩]
  · intro id blobId spared
    apply (World.getManifest_without id blobId).trans
    exact if_neg fun doomed => spared ⟨doomed.1, (removed_iff blobId).mp doomed.2⟩
  · intro ref spared
    apply (World.anchor_without ref).trans
    exact if_neg fun doomed => spared ⟨doomed.1, (removed_iff ref.blobId).mp doomed.2⟩

/-! ## Another prune -/

/-- What is left is among the newest or held back. -/
theorem Lists.mem_survivors {versions again : List Manifest} {ticks : ℕ}
    (lists : Lists state.store ns objectId (newestFirst versions))
    (listsAgain : Lists ((state.ticked ticks).without ns
      ((surplus retention time keep (newestFirst versions)).map Manifest.blobId)).store ns objectId
        again) {version : Manifest} (present : version ∈ again) :
    version ∈ (newestFirst versions).take keep ∨
      version ∈ heldBack retention time keep (newestFirst versions) := by
  have survives := (listsAgain.mem_iff version).mp present
  rw [inGroup_without] at survives
  have listed := (lists.mem_iff version).mpr survives.1
  rw [← List.take_append_drop keep (newestFirst versions)] at listed
  rcases List.mem_append.mp listed with first | later
  · exact Or.inl first
  · right
    rw [mem_heldBack]
    refine ⟨later, ?_⟩
    by_contra elapsed
    apply survives.2
    exact List.mem_map_of_mem (mem_surplus.mpr ⟨later, by simpa using elapsed⟩)

theorem Lists.surplus_again {versions again : List Manifest} {ticks : ℕ}
    (lists : Lists state.store ns objectId (newestFirst versions))
    (listsAgain : Lists ((state.ticked ticks).without ns
      ((surplus retention time keep (newestFirst versions)).map Manifest.blobId)).store ns objectId
        again) :
    surplus retention time keep again = [] := by
  have survivors {version : Manifest} (present : version ∈ again) :=
    lists.mem_survivors listsAgain present
  cases held : heldBack retention time keep (newestFirst versions) with
  | nil =>
      have inside : again ⊆ (newestFirst versions).take keep := by
        intro version present
        rcases survivors present with first | impossible
        · exact first
        · rw [held] at impossible
          cases impossible
      have few : again.length ≤ keep := by
        have fewer := (listsAgain.nodup.of_map.subperm inside).length_le
        rw [List.length_take] at fewer
        omega
      rw [surplus, List.drop_eq_nil_of_le few, List.filter_nil]
  | cons oldest others =>
      have isHeld : oldest ∈ heldBack retention time keep (newestFirst versions) := by
        rw [held]
        exact List.mem_cons_self
      rcases mem_heldBack.mp isHeld with ⟨later, notElapsed⟩
      apply List.eq_nil_iff_forall_not_mem.mpr
      intro version present
      rcases mem_surplus.mp present with ⟨beyond, elapsed⟩
      rcases survivors (List.mem_of_mem_drop beyond) with first | alsoHeld
      · -- Whatever was kept is at least as new as what was held back.
        have elapsedToo := retention.holdElapsed_of_le (newer_of_take first later) elapsed
        rw [notElapsed] at elapsedToo
        cases elapsedToo
      · rw [(mem_heldBack.mp alsoHeld).2] at elapsed
        cases elapsed

/-- The report counts what was kept, removed and held back. -/
structure Counts (retention : RetentionPolicy) (versions : ℕ) (report : PruneReport) : Prop where
  versions : report.versions = versions
  total : report.kept + report.pruned + report.held = report.versions
  kept : 1 ≤ retention.keepVersions.toNat →
    report.kept = min retention.keepVersions.toNat report.versions

theorem counts_verdict (versions : List Manifest) :
    Counts retention versions.length (verdict retention time objectId versions).2 := by
  by_cases unlimited : retention.keepVersions.toNat = 0
  · rw [verdict, if_pos unlimited]
    exact ⟨rfl, rfl, fun limited => by omega⟩
  · rw [verdict, if_neg unlimited]
    refine ⟨rfl, ?_, fun _ => rfl⟩
    have parts : (surplus retention time retention.keepVersions.toNat
        (newestFirst versions)).length + (heldBack retention time retention.keepVersions.toNat
          (newestFirst versions)).length =
            (newestFirst versions).length - retention.keepVersions.toNat :=
      length_surplus_add_heldBack
    rw [(newestFirst_perm versions).length_eq] at parts
    simp only [judge]
    omega

/--
A prune leaves the newest versions and those under hold, and nothing else of the
object; whatever is not of the object it leaves alone. Another prune at the same
time removes nothing.
-/
theorem prune_keeps_newest_and_held (clock : ∀ tick, env.clock tick = time)
    (built : state.store.Built) (ns : NamespaceId) (objectId : String) {owned : Namespace}
    {contract : AppContract} (owner : state.store.getNamespace ns = some owned)
    (terms : state.store.getContract owned.appId = some contract) :
    ∃ report last, (execute ns objectId).run (world env shardMap) state = (.ok report, last) ∧
      Counts contract.retention (group state.store ns objectId).card report ∧
      (contract.retention.keepVersions.toNat = 0 →
        last.store = state.store ∧ last.anchor = state.anchor) ∧
      (1 ≤ contract.retention.keepVersions.toNat → ∃ kept held,
        KeepsNewest contract.retention time ns objectId state last kept held ∧
          report.held = held.card) ∧
      ∃ again later, (execute ns objectId).run (world env shardMap) last = (.ok again, later) ∧
        again.pruned = 0 := by
  have keyed := built.keyed
  let found := foundVersions env state ns objectId
  have lists : Lists state.store ns objectId (newestFirst found) := lists_newestFirst keyed
  have counted : Counts contract.retention found.length
      (verdict contract.retention time objectId found).2 := counts_verdict found
  rw [← (newestFirst_perm found).length_eq, ← lists.card_group keyed] at counted
  have once : ∃ ticks, (execute ns objectId).run (world env shardMap) state =
      (.ok (verdict contract.retention time objectId found).2,
        (state.ticked ticks).without ns (verdict contract.retention time objectId found).1) :=
    execute_run clock owner terms
  rcases once with ⟨ticks, once⟩
  let last := (state.ticked ticks).without ns (verdict contract.retention time objectId found).1
  have ownerAgain : last.store.getNamespace ns = some owned := by
    rw [World.getNamespace_without]
    exact owner
  have termsAgain : last.store.getContract owned.appId = some contract := by
    rw [World.getContract_without]
    exact terms
  let foundAgain := foundVersions env last ns objectId
  have twice : ∃ ticks, (execute ns objectId).run (world env shardMap) last =
      (.ok (verdict contract.retention time objectId foundAgain).2,
        (last.ticked ticks).without ns
          (verdict contract.retention time objectId foundAgain).1) :=
    execute_run clock ownerAgain termsAgain
  rcases twice with ⟨ticksAgain, twice⟩
  refine ⟨_, last, once, counted, ?_, ?_, _, _, twice, ?_⟩
  · intro unlimited
    simp only [last, verdict, if_pos unlimited]
    exact ⟨rfl, rfl⟩
  · intro limited
    have bounded : ¬contract.retention.keepVersions.toNat = 0 := by omega
    simp only [last, verdict, if_neg bounded]
    refine ⟨_, _, lists.keepsNewest keyed ticks, ?_⟩
    rw [ids, List.toFinset_card_of_nodup, List.length_map]
    · rfl
    · exact ((List.filter_sublist.trans (List.drop_sublist _ _)).map _).nodup lists.nodup
  · by_cases unlimited : contract.retention.keepVersions.toNat = 0
    · rw [verdict, if_pos unlimited]
    · have keyedAgain : last.store.Keyed :=
        MemoryMetadataStore.Keyed.without (by exact keyed) ns _
      have listsAgain : Lists last.store ns objectId (newestFirst foundAgain) :=
        lists_newestFirst keyedAgain
      simp only [last, verdict, if_neg unlimited, judge] at listsAgain
      rw [verdict, if_neg unlimited]
      change (surplus _ _ _ (newestFirst foundAgain)).length = 0
      rw [lists.surplus_again listsAgain, List.length_nil]

/-- Two versions of one object, of which one is to be kept. -/
def twoVersions : World ShardMap where
  store := ((sampleStore ⟨10, 10⟩ ⟨1, 0⟩).putManifest
    { sampleManifest [.anchor] with objectId := some "object" }).putManifest
      { sampleManifest [.anchor] with
        blobId := ⟨"blob-6"⟩
        createdAt := ⟨2000⟩
        objectId := some "object" }
  anchor _ := some [7]
  signed := []
  tick := 0

theorem prune_keeps_newest_and_held_twoVersions :
    ∃ report last, (execute ⟨"ns-1"⟩ "object").run (world sampleEnvironment shardMap) twoVersions =
        (.ok report, last) ∧
      report.kept = min 1 report.versions ∧
      ∃ kept held, KeepsNewest ⟨1, 0⟩ ⟨1000⟩ ⟨"ns-1"⟩ "object" twoVersions last kept held := by
  have built : twoVersions.store.Built :=
    .after (.putManifest _) (.after (.putManifest _)
      (.after (.createNamespace ⟨⟨"ns-1"⟩, ⟨"app-1"⟩⟩)
        (.after (.registerApp (AppContract.new ⟨"app-1"⟩ ⟨10, 10⟩ ⟨1, 0⟩ ⟨1, 2⟩)) .empty)))
  have owner : twoVersions.store.getNamespace ⟨"ns-1"⟩ = some ⟨⟨"ns-1"⟩, ⟨"app-1"⟩⟩ := rfl
  have terms : twoVersions.store.getContract ⟨"app-1"⟩ =
      some (AppContract.new ⟨"app-1"⟩ ⟨10, 10⟩ ⟨1, 0⟩ ⟨1, 2⟩) := rfl
  have clock : ∀ tick, sampleEnvironment.clock tick = ⟨1000⟩ := fun _ => rfl
  rcases prune_keeps_newest_and_held clock built ⟨"ns-1"⟩ "object" owner terms with
    ⟨report, last, ran, counted, -, limited, -⟩
  rcases limited (by decide) with ⟨kept, held, outcome, -⟩
  exact ⟨report, last, ran, counted.kept (by decide), kept, held, outcome⟩

end PruneVersions

end VaultMesh
