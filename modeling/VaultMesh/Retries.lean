import VaultMesh.Interruptions

/-!
# Running a sweep again

A sweep which was cut short has removed some of the blobs it chose, perhaps part
of the next one, and nothing else. Run again at the same time, it chooses
exactly those which are left: the versions already gone were behind the ones to
keep, so the others keep their places in the order. Hence it ends where one
undisturbed run would have ended.
-/

namespace VaultMesh

open Interaction Coding

/-- A failed deletion touches no shards but those of its blob. -/
def TouchesOnly (left : NamespaceId → BlobId → ShardMap → ShardMap) : Prop :=
  ∀ ns blobId anchor (ref : ShardRef), (ref.ns, ref.blobId) ≠ (ns, blobId) →
    left ns blobId anchor ref = anchor ref

/-- What a sweep leaves which has removed the blobs `gone` and is still to remove `rest`. -/
structure Partway (state : World ShardMap) (ns : NamespaceId) (gone rest : List BlobId)
    (middle : World ShardMap) : Prop where
  store : middle.store = (state.without ns gone).store
  signed : middle.signed = state.signed
  shards : ∀ ref : ShardRef, ¬(ref.ns = ns ∧ ref.blobId ∈ rest) →
    middle.anchor ref = (state.without ns gone).anchor ref

namespace Partway

variable {state middle : World ShardMap} {ns : NamespaceId} {gone rest : List BlobId}

theorem getContract (partway : Partway state ns gone rest middle) (app : AppId) :
    middle.store.getContract app = state.store.getContract app := by
  rw [partway.store, World.getContract_without]

theorem getNamespace (partway : Partway state ns gone rest middle) (id : NamespaceId) :
    middle.store.getNamespace id = state.store.getNamespace id := by
  rw [partway.store, World.getNamespace_without]

/-- Removing the rest ends where removing all would have ended. -/
theorem without (partway : Partway state ns gone rest middle) (ticks : ℕ) :
    ((middle.ticked ticks).without ns rest).store = (state.without ns (gone ++ rest)).store ∧
      ((middle.ticked ticks).without ns rest).anchor =
        (state.without ns (gone ++ rest)).anchor := by
  constructor
  · rw [World.without_append]
    exact World.store_without_congr partway.store
  · funext ref
    rw [World.without_append, World.anchor_without, World.anchor_without, World.anchor_ticked]
    by_cases later : ref.ns = ns ∧ ref.blobId ∈ rest
    · rw [if_pos later, if_pos later]
    · rw [if_neg later, if_neg later, partway.shards ref later]

end Partway

theorem Cut.partway {faults : Faults} {left : NamespaceId → BlobId → ShardMap → ShardMap}
    (touches : TouchesOnly left) {ns : NamespaceId} {state middle : World ShardMap} {ticks : ℕ}
    {doomed : List BlobId} (cut : Cut faults left ns (state.ticked ticks) doomed middle) :
    ∃ gone rest, doomed = gone ++ rest ∧ rest ≠ [] ∧ Partway state ns gone rest middle := by
  have sameStore (gone : List BlobId) :
      ((state.ticked ticks).without ns gone).store = (state.without ns gone).store :=
    World.store_without_congr rfl
  have sameShards (gone : List BlobId) (ref : ShardRef) :
      ((state.ticked ticks).without ns gone).anchor ref = (state.without ns gone).anchor ref := by
    rw [World.anchor_without, World.anchor_without, World.anchor_ticked]
  cases cut with
  | @shards gone rest blobId split before fails =>
      refine ⟨gone, blobId :: rest, split, List.cons_ne_nil _ _, sameStore gone, ?_, ?_⟩
      · exact World.signed_without
      · intro ref other
        rw [← sameShards]
        apply touches
        intro same
        rcases Prod.mk.inj same with ⟨sameNs, sameBlob⟩
        exact other ⟨sameNs, by rw [sameBlob]; exact List.mem_cons_self⟩
  | @manifest gone rest blobId split before works fails =>
      refine ⟨gone, blobId :: rest, split, List.cons_ne_nil _ _, sameStore gone, ?_, ?_⟩
      · exact World.signed_without
      · intro ref other
        rw [← sameShards]
        apply if_neg
        rintro ⟨sameNs, sameBlob⟩
        exact other ⟨sameNs, by rw [sameBlob]; exact List.mem_cons_self⟩

/-! ## What is chosen the second time -/

namespace PruneVersions

variable {env : Environment} {state middle : World ShardMap} {ns : NamespaceId}
  {objectId : String} {retention : RetentionPolicy} {time : Timestamp} {gone rest : List BlobId}

/-- No two versions were created at the same time. -/
def DistinctAges (store : MemoryMetadataStore) (ns : NamespaceId) (objectId : String) : Prop :=
  ∀ one other, InGroup store ns objectId one → InGroup store ns objectId other →
    one.createdAt = other.createdAt → one.blobId = other.blobId

/-- The order of what is left is the order of before. -/
theorem newestFirst_middle (keyed : state.store.Keyed)
    (distinct : DistinctAges state.store ns objectId)
    (partway : Partway state ns gone rest middle) :
    newestFirst (foundVersions env middle ns objectId) =
      (newestFirst (foundVersions env state ns objectId)).filter fun version =>
        decide (version.blobId ∉ gone) := by
  have keyedToo : middle.store.Keyed := by
    rw [partway.store]
    exact keyed.without ns gone
  have inGroup (version : Manifest) : InGroup middle.store ns objectId version ↔
      InGroup state.store ns objectId version ∧ version.blobId ∉ gone := by
    rw [partway.store, inGroup_without]
  have sorted := newestFirst_perm (foundVersions env state ns objectId)
  apply newestFirst_eq_of_perm
  · have nodup : (foundVersions env middle ns objectId).Nodup :=
      (nodup_map_blobId_foundVersions keyedToo).of_map _
    have nodupBefore : (newestFirst (foundVersions env state ns objectId)).Nodup :=
      sorted.nodup_iff.mpr ((nodup_map_blobId_foundVersions keyed).of_map _)
    rw [List.perm_ext_iff_of_nodup nodup (nodupBefore.filter _)]
    intro version
    rw [mem_foundVersions keyedToo, inGroup, List.mem_filter, sorted.mem_iff,
      mem_foundVersions keyed, decide_eq_true_eq]
  · exact (newestFirst_sorted _).filter _
  · intro one present other presentToo sameAge
    have first := (inGroup _).mp ((mem_foundVersions keyedToo).mp present)
    have second := (inGroup _).mp ((mem_foundVersions keyedToo).mp presentToo)
    exact first.1.eq_of_blobId second.1 (distinct one other first.1 second.1 sameAge)

/-- If only members after the first `keep` are left out, the first `keep` stay in place. -/
theorem drop_filter_of_kept {α : Type} {passes : α → Bool} {keep : ℕ} {members : List α}
    (kept : ∀ member ∈ members.take keep, passes member = true) :
    (members.filter passes).drop keep = (members.drop keep).filter passes := by
  induction members generalizing keep with
  | nil => simp
  | cons member members ih =>
      cases keep with
      | zero => rfl
      | succ keep =>
          rw [List.take_succ_cons, List.forall_mem_cons] at kept
          rw [List.filter_cons_of_pos kept.1, List.drop_succ_cons, List.drop_succ_cons]
          exact ih kept.2

theorem surplus_filter {keep : ℕ} {sorted : List Manifest}
    (nodup : (sorted.map Manifest.blobId).Nodup)
    (chosen : (surplus retention time keep sorted).map Manifest.blobId = gone ++ rest) :
    (surplus retention time keep
      (sorted.filter fun version => decide (version.blobId ∉ gone))).map Manifest.blobId =
        rest := by
  have nodupChosen : (gone ++ rest).Nodup := by
    rw [← chosen]
    exact ((List.filter_sublist.trans (List.drop_sublist keep sorted)).map _).nodup nodup
  have kept : ∀ version ∈ sorted.take keep, decide (version.blobId ∉ gone) = true := by
    intro version inFront
    rw [decide_eq_true_eq]
    intro removed
    have dropped : version.blobId ∈ (sorted.drop keep).map Manifest.blobId := by
      have isChosen : version.blobId ∈ gone ++ rest := List.mem_append_left _ removed
      rw [← chosen] at isChosen
      exact (List.filter_sublist.map _).subset isChosen
    rw [← List.take_append_drop keep sorted, List.map_append] at nodup
    exact (List.disjoint_of_nodup_append nodup) (List.mem_map_of_mem inFront) dropped
  have behind : (surplus retention time keep
      (sorted.filter fun version => decide (version.blobId ∉ gone))) =
        (surplus retention time keep sorted).filter fun version =>
          decide (version.blobId ∉ gone) := by
    rw [surplus, drop_filter_of_kept kept, surplus, List.filter_comm]
  have mapped : ((surplus retention time keep sorted).filter fun version =>
      decide (version.blobId ∉ gone)).map Manifest.blobId =
        (gone ++ rest).filter fun blobId => decide (blobId ∉ gone) := by
    rw [← chosen, List.filter_map]
    rfl
  rw [behind, mapped, List.filter_append]
  have noneGone : gone.filter (fun blobId => decide (blobId ∉ gone)) = [] := by
    simp
  have allRest : rest.filter (fun blobId => decide (blobId ∉ gone)) = rest := by
    apply List.filter_eq_self.mpr
    intro blobId present
    rw [decide_eq_true_eq]
    exact fun removed => (List.disjoint_of_nodup_append nodupChosen) removed present
  rw [noneGone, allRest, List.nil_append]

theorem verdict_middle (keyed : state.store.Keyed)
    (distinct : DistinctAges state.store ns objectId)
    (partway : Partway state ns gone rest middle)
    (chosen : (verdict retention time objectId (foundVersions env state ns objectId)).1 =
      gone ++ rest) :
    (verdict retention time objectId (foundVersions env middle ns objectId)).1 = rest := by
  by_cases unlimited : retention.keepVersions.toNat = 0
  · rw [verdict, if_pos unlimited] at chosen
    rw [verdict, if_pos unlimited]
    exact (List.append_eq_nil_iff.mp chosen.symm).2.symm
  · rw [verdict, if_neg unlimited, judge] at chosen
    rw [verdict, if_neg unlimited, judge, newestFirst_middle keyed distinct partway]
    apply surplus_filter ?_ chosen
    exact ((newestFirst_perm _).map _).nodup_iff.mpr (nodup_map_blobId_foundVersions keyed)

end PruneVersions

namespace Sweep

variable {env : Environment} {faults : Faults}
  {left : NamespaceId → BlobId → ShardMap → ShardMap} {state middle : World ShardMap}
  {ns : NamespaceId} {sweep : Sweep} {doomed gone rest : List BlobId} {time : Timestamp}

/-- What a sweep decides in spite of some failures it also decides without them. -/
theorem Condemns.unfailing (condemns : Condemns env faults state ns sweep doomed) :
    Condemns env .none state ns sweep doomed := by
  cases sweep with
  | delete token blobId =>
      rcases condemns with ⟨same, contract, admits⟩
      refine ⟨same, contract, ⟨?_, Faults.works_none _, admits.known, ?_⟩⟩
      · exact ⟨Faults.works_none _, Faults.works_none _, admits.cleared.verified,
          admits.cleared.authorized, admits.cleared.owner⟩
      · intro holds
        exact ⟨Faults.works_none _, (admits.released holds).2⟩
  | prune objectId =>
      rcases condemns with ⟨owned, contract, inspects, same⟩
      refine ⟨owned, contract, ⟨?_, ?_, ?_, ?_, inspects.owner, inspects.terms⟩, same⟩
      · exact Faults.works_none _
      · exact Faults.works_none _
      · exact Faults.works_none _
      · exact fun _ _ => Faults.works_none _

/-- The versions of the object have different ages; a delete has no versions. -/
def Distinct (store : MemoryMetadataStore) (ns : NamespaceId) : Sweep → Prop
  | .delete _ _ => True
  | .prune objectId => PruneVersions.DistinctAges store ns objectId

/-- Having removed some blobs, the sweep condemns the others. -/
theorem Condemns.resumed (clock : ∀ tick, env.clock tick = time) (keyed : state.store.Keyed)
    (distinct : sweep.Distinct state.store ns)
    (condemns : Condemns env .none state ns sweep (gone ++ rest))
    (unfinished : gone = [] ∨ rest ≠ []) (partway : Partway state ns gone rest middle) :
    Condemns env .none middle ns sweep rest := by
  cases sweep with
  | delete token blobId =>
      rcases condemns with ⟨single, contract, admits⟩
      have nothing : gone = [] := by
        rcases unfinished with empty | unfinished
        · exact empty
        · have lengths := congrArg List.length single
          have positive := List.length_pos_iff.mpr unfinished
          simp only [List.length_append, List.length_singleton] at lengths
          exact List.eq_nil_of_length_eq_zero (by omega)
      subst nothing
      have sameManifest : middle.store.getManifest ns blobId =
          state.store.getManifest ns blobId := by
        rw [partway.store]
        rfl
      refine ⟨single, contract, ⟨Faults.works_none _, Faults.works_none _, ?_, ?_, ?_⟩,
        Faults.works_none _, ?_, ?_⟩
      · rw [partway.signed]
        exact admits.cleared.verified
      · have authorized := admits.cleared.authorized
        rw [clock] at authorized ⊢
        exact authorized
      · rw [partway.getNamespace]
        exact admits.cleared.owner
      · rw [partway.getContract]
        exact admits.known
      · intro holds
        have released := admits.released holds
        rw [clock] at released
        rw [clock, sameManifest]
        exact released
  | prune objectId =>
      rcases condemns with ⟨owned, contract, inspects, chosen⟩
      refine ⟨owned, contract, ⟨Faults.works_none _, Faults.works_none _, Faults.works_none _,
        fun _ _ => Faults.works_none _, ?_, ?_⟩, ?_⟩
      · rw [partway.getNamespace]
        exact inspects.owner
      · rw [partway.getContract]
        exact inspects.terms
      · rw [clock] at chosen ⊢
        exact (PruneVersions.verdict_middle keyed distinct partway chosen.symm).symm

/-- Without failures, a sweep removes all it condemns. -/
theorem Condemns.program_run (condemns : Condemns env .none state ns sweep doomed) :
    ∃ ticks, (sweep.program ns).run (world env shardMap) state =
      (.ok (), (state.ticked ticks).without ns doomed) := by
  have examined : ∃ ticks, (sweep.examine ns).run
      (faultyWorld env shardMap .none fun _ _ anchor => anchor) state =
        (.ok doomed, state.ticked ticks) := condemns.examine_run
  rcases examined with ⟨ticks, examined⟩
  rw [faultyWorld_none] at examined
  refine ⟨ticks, ?_⟩
  rw [program_eq, Program.run_bind_of_ok examined, removeEach_run_unfailing]

theorem condemns_of_program_run {final : World ShardMap}
    (ran : (sweep.program ns).run (world env shardMap) state = (.ok (), final)) :
    ∃ doomed, Condemns env .none state ns sweep doomed := by
  have ends := program_ends env .none (fun _ _ anchor => anchor) state ns sweep
  rw [faultyWorld_none, ran] at ends
  cases ends with
  | @finished doomed _ condemns _ => exact ⟨doomed, condemns⟩

/--
If a sweep which would have ended well is cut short, then running it again at
the same time ends well, with the store and the anchor of one undisturbed run.
-/
theorem retried_sweep_converges (clock : ∀ tick, env.clock tick = time)
    (built : state.store.Built) (distinct : sweep.Distinct state.store ns)
    (touches : TouchesOnly left) {final : World ShardMap} {failure : Failure}
    (undisturbed : (sweep.program ns).run (world env shardMap) state = (.ok (), final))
    (interrupted : (sweep.program ns).run (faultyWorld env shardMap faults left) state =
      (.error failure, middle)) :
    ∃ last, (sweep.program ns).run (world env shardMap) middle = (.ok (), last) ∧
      last.store = final.store ∧ last.anchor = final.anchor := by
  rcases condemns_of_program_run undisturbed with ⟨doomed, condemns⟩
  have halfway : ∃ gone rest, doomed = gone ++ rest ∧ (gone = [] ∨ rest ≠ []) ∧
      Partway state ns gone rest middle := by
    have ends := program_ends env faults left state ns sweep
    rw [interrupted] at ends
    cases ends with
    | refused spared => exact ⟨[], doomed, rfl, Or.inl rfl, rfl, rfl, fun _ _ => rfl⟩
    | cut condemnsToo cut =>
        rcases condemns.unique condemnsToo.unfailing with rfl
        rcases cut.partway touches with ⟨gone, rest, split, unfinished, partway⟩
        exact ⟨gone, rest, split, Or.inr unfinished, partway⟩
  rcases halfway with ⟨gone, rest, rfl, unfinished, partway⟩
  rcases condemns.program_run with ⟨ticks, once⟩
  rcases (condemns.resumed clock built.keyed distinct unfinished partway).program_run with
    ⟨ticksToo, again⟩
  rcases Prod.mk.inj (undisturbed.symm.trans once) with ⟨-, rfl⟩
  have start : Partway state ns [] (gone ++ rest) (state.ticked ticks) :=
    ⟨rfl, rfl, fun _ _ => rfl⟩
  have expected := start.without 0
  have reached := partway.without ticksToo
  refine ⟨_, again, ?_, ?_⟩
  · exact reached.1.trans expected.1.symm
  · exact reached.2.trans expected.2.symm

/-- The deletion fails after it has removed the first shard. -/
def loseFirst (ns : NamespaceId) (blobId : BlobId) (anchor : ShardMap) : ShardMap :=
  Function.update anchor ⟨ns, blobId, 0⟩ none

theorem retried_sweep_converges_oneBlob :
    ∃ last, (sampleDelete.program ⟨"ns-1"⟩).run (world sampleEnvironment shardMap)
        ((sampleDelete.program ⟨"ns-1"⟩).run (faultyWorld sampleEnvironment shardMap
          (onlyFault (.deleteBlob ⟨"ns-1"⟩ ⟨"blob-5"⟩)) loseFirst) oneBlob).2 = (.ok (), last) ∧
      last.store =
        ((sampleDelete.program ⟨"ns-1"⟩).run (world sampleEnvironment shardMap) oneBlob).2.store ∧
      last.anchor =
        ((sampleDelete.program ⟨"ns-1"⟩).run (world sampleEnvironment shardMap)
          oneBlob).2.anchor := by
  have built : oneBlob.store.Built :=
    .after (.putManifest (sampleManifest [.anchor]))
      (.after (.createNamespace ⟨⟨"ns-1"⟩, ⟨"app-1"⟩⟩)
        (.after (.registerApp (AppContract.new ⟨"app-1"⟩ ⟨10, 10⟩ ⟨1, 0⟩ ⟨1, 2⟩)) .empty))
  have touches : TouchesOnly loseFirst := by
    intro ns blobId anchor ref other
    apply Function.update_of_ne
    intro same
    exact other (by rw [same])
  have distinct : sampleDelete.Distinct oneBlob.store ⟨"ns-1"⟩ := trivial
  have interrupted : (sampleDelete.program ⟨"ns-1"⟩).run (faultyWorld sampleEnvironment shardMap
      (onlyFault (.deleteBlob ⟨"ns-1"⟩ ⟨"blob-5"⟩)) loseFirst) oneBlob =
        (.error (.port (.unavailable "down")), _) := Prod.ext rfl rfl
  exact retried_sweep_converges (fun _ => rfl) built distinct touches
    (Prod.ext (rfl : _ = Except.ok ()) rfl) interrupted

end Sweep

end VaultMesh
