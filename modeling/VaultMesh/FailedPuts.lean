import VaultMesh.Restore
import VaultMesh.Faults

/-!
# Puts which fail

A put reads, writes the shards one by one and then writes the manifest. If a port
fails before the first shard is written, nothing has happened. If one fails
later, the shards written so far stay on the anchor, and no manifest tells of
them.
-/

namespace VaultMesh

open Interaction Coding

namespace PutBackup

variable {env : Environment} {faults : Faults}
  {left : NamespaceId → BlobId → ShardMap → ShardMap} {state last : World ShardMap}
  {ns : NamespaceId} {token : CapabilityToken} {ciphertext : Slice} {contract : AppContract}

/-! ## Before the first write -/

/-- The part of a put up to the quota check. -/
def precheck (ns : NamespaceId) (token : CapabilityToken) (ciphertext : Slice) :
    UseCase AppContract := do
  let app ← authorize ns token .put
  let found ← getContract app
  let contract ← okOr found .notFound
  let usage ← namespaceUsage ns
  if contract.quota.admits usage.bytes usage.objects (sliceLen ciphertext) then
    pure contract
  else
    Program.fail (.port (.domain .quotaExceeded))

theorem execute_eq (self : PutBackup) (ns : NamespaceId) (token : CapabilityToken)
    (ciphertext : Slice) :
    self.execute ns token ciphertext =
      precheck ns token ciphertext >>= fun contract => self.store ns contract ciphertext := by
  simp only [execute, precheck, bind_assoc]
  congr 1
  funext app
  congr 1
  funext found
  congr 1
  funext contract
  congr 1
  funext usage
  split
  · rfl
  · rfl

theorem precheck_obeys (ns : NamespaceId) (token : CapabilityToken) (ciphertext : Slice) :
    (precheck ns token ciphertext).Obeys (fun _ => ReadOnly) [] fun _ _ => True := by
  refine (authorize_obeys permits_readOnly.guard ns token .put []).bind (fun _ _ _ => trivial) ?_
  intro _ app _
  refine Program.Obeys.call_bind trivial (fun _ _ _ => trivial) ?_
  intro _ found _
  cases found with
  | none => exact trivial
  | some contract =>
      refine Program.Obeys.call_bind trivial (fun _ _ _ => trivial) ?_
      intro _ usage _
      dsimp only
      split <;> exact trivial

/-- The put works up to its first write, and the contract admits the ciphertext. -/
structure Admits (env : Environment) (faults : Faults) (state : World ShardMap) (ns : NamespaceId)
    (token : CapabilityToken) (ciphertext : Slice) (contract : AppContract) : Prop where
  cleared : Cleared env faults state ns token .put
  contractWorks : faults.Works (.getContract token.claims.appId)
  usageWorks : faults.Works (.namespaceUsage ns)
  known : state.store.getContract token.claims.appId = some contract
  admits : contract.quota.admits (state.store.namespaceUsage ns).bytes
    (state.store.namespaceUsage ns).objects (sliceLen ciphertext) = true

theorem precheck_run_ok_iff :
    (precheck ns token ciphertext).run (faultyWorld env shardMap faults left) state =
        (.ok contract, last) ↔
      Admits env faults state ns token ciphertext contract ∧ state.ticked 5 = last := by
  constructor
  · intro ended
    rcases Program.run_bind_eq_ok ended with ⟨app, middle, authorized, ended⟩
    rcases authorize_run_ok_iff.mp authorized with ⟨cleared, rfl, rfl⟩
    simp only [getContract_run_ok_iff, run_okOr_bind_ok_iff, namespaceUsage_run_ok_iff] at ended
    rcases ended with ⟨contractWorks, found, known, usageWorks, ended⟩
    split at ended
    · next admits =>
        rcases Prod.mk.inj ended with ⟨same, rfl⟩
        rcases Except.ok.inj same with rfl
        exact ⟨⟨cleared, contractWorks, usageWorks, known, admits⟩, rfl⟩
    · cases (Prod.mk.inj ended).1
  · rintro ⟨admits, same⟩
    subst same
    rw [precheck, Program.run_bind_of_ok (authorize_run_ok_iff.mpr ⟨admits.cleared, rfl, rfl⟩)]
    simp only [getContract_run_ok_iff, run_okOr_bind_ok_iff, namespaceUsage_run_ok_iff]
    refine ⟨admits.contractWorks, contract, admits.known, admits.usageWorks, ?_⟩
    simp only [World.store_ticked, World.ticked_ticked, if_pos admits.admits, Program.run_pure]

/-! ## Writing the shards -/

variable {self : PutBackup} {blobId : BlobId}

theorem replicate_run_faulty (ref : ShardRef) (bytes : Bytes) (state : World ShardMap) :
    ∃ placed ticks, (self.replicate ref bytes).run (faultyWorld env shardMap faults left) state =
      (.ok placed, { state with tick := ticks }) := by
  have obeys : (self.replicate ref bytes).Obeys (fun _ => ReadOnly) [] _ :=
    self.replicate_obeys (fun _ _ _ _ => trivial) ref bytes []
  rcases obeys.run (faultyWorld env shardMap faults left) state with ⟨placed, went⟩
  rcases readOnly_run_faulty obeys state with ⟨ticks, same⟩
  exact ⟨placed, ticks, Prod.ext went same⟩

/-- Every shard of the word can be written, from position `index` on. -/
def Writable (faults : Faults) (ns : NamespaceId) (blobId : BlobId) (index : ℕ)
    (word : List Bytes) : Prop :=
  ∀ position bytes, word[position]? = some bytes →
    faults.Works (.putShard ⟨ns, blobId, UInt16.ofNat (index + position)⟩ bytes)

theorem writable_cons {index : ℕ} {bytes : Bytes} {rest : List Bytes} :
    Writable faults ns blobId index (bytes :: rest) ↔
      faults.Works (.putShard ⟨ns, blobId, UInt16.ofNat index⟩ bytes) ∧
        Writable faults ns blobId (index + 1) rest := by
  constructor
  · intro writable
    refine ⟨writable 0 bytes rfl, ?_⟩
    intro position symbol found
    have works := writable (position + 1) symbol found
    rw [Nat.add_comm position 1, ← Nat.add_assoc] at works
    exact works
  · rintro ⟨works, writable⟩ position symbol found
    cases position with
    | zero =>
        rcases Option.some.inj found with rfl
        exact works
    | succ position =>
        rw [Nat.add_comm position 1, ← Nat.add_assoc]
        exact writable position symbol found

/-- What writing shards of the blob may do to the world. -/
structure Wrote (ns : NamespaceId) (blobId : BlobId) (state last : World ShardMap) : Prop where
  store : last.store = state.store
  others : ∀ ref : ShardRef, (ref.ns, ref.blobId) ≠ (ns, blobId) →
    last.anchor ref = state.anchor ref
  kept : ∀ ref, (state.anchor ref).isSome → (last.anchor ref).isSome

theorem Wrote.of_unchanged (store : last.store = state.store)
    (anchor : last.anchor = state.anchor) : Wrote ns blobId state last where
  store := store
  others ref _ := by rw [anchor]
  kept ref present := by
    rw [anchor]
    exact present

theorem Wrote.trans {middle : World ShardMap} (wrote : Wrote ns blobId state middle)
    (later : Wrote ns blobId middle last) : Wrote ns blobId state last where
  store := later.store.trans wrote.store
  others ref other := (later.others ref other).trans (wrote.others ref other)
  kept ref present := later.kept ref (wrote.kept ref present)

theorem isSome_after_putShard (ref : ShardRef) (bytes : Bytes) (state : World ShardMap) :
    ((state.after shardMap (.putShard ref bytes)).anchor ref).isSome := by
  simp [World.after, AnchorModel.after, shardMap]

theorem wrote_putShard (index : UInt16) (bytes : Bytes) (state : World ShardMap) :
    Wrote ns blobId state (state.after shardMap (.putShard ⟨ns, blobId, index⟩ bytes)) where
  store := rfl
  others ref other := by
    apply Function.update_of_ne
    intro same
    rw [same] at other
    exact other rfl
  kept ref present := by
    by_cases same : ref = ⟨ns, blobId, index⟩
    · subst same
      exact isSome_after_putShard _ bytes state
    · simpa [World.after, AnchorModel.after, shardMap, Function.update_of_ne same] using present

theorem storeShards_run_faulty (index : ℕ) (word : List Bytes) (state : World ShardMap) :
    Wrote ns blobId state
        ((self.storeShards ns blobId index word).run (faultyWorld env shardMap faults left)
          state).2 ∧
      ((∃ shards, ((self.storeShards ns blobId index word).run
          (faultyWorld env shardMap faults left) state).1 = .ok shards) ↔
        Writable faults ns blobId index word) ∧
      ∀ bytes, word[0]? = some bytes →
        faults.Works (.putShard ⟨ns, blobId, UInt16.ofNat index⟩ bytes) →
        (((self.storeShards ns blobId index word).run (faultyWorld env shardMap faults left)
          state).2.anchor ⟨ns, blobId, UInt16.ofNat index⟩).isSome := by
  induction word generalizing index state with
  | nil =>
      refine ⟨.of_unchanged rfl rfl, ⟨fun _ => ?_, fun _ => ⟨[], rfl⟩⟩, by simp⟩
      intro position bytes found
      simp at found
  | cons bytes rest ih =>
      rw [writable_cons, storeShards]
      by_cases works : faults.Works (.putShard ⟨ns, blobId, UInt16.ofNat index⟩ bytes)
      · let written := state.after shardMap (.putShard ⟨ns, blobId, UInt16.ofNat index⟩ bytes)
        have replicated : ∃ placed ticks,
            (self.replicate ⟨ns, blobId, UInt16.ofNat index⟩ bytes).run
              (faultyWorld env shardMap faults left) written =
                (.ok placed, { written with tick := ticks }) :=
          replicate_run_faulty _ _ _
        rcases replicated with ⟨placed, ticks, replicated⟩
        rcases ih (index + 1) { written with tick := ticks } with ⟨wrote, ended, -⟩
        rw [putShard, run_of_works _ question works rfl, Program.run_bind_of_ok replicated,
          Program.run_bind_pure]
        refine ⟨?_, ?_, fun _ _ _ => wrote.kept _ (isSome_after_putShard _ bytes state)⟩
        · have first : Wrote ns blobId state { written with tick := ticks } :=
            (wrote_putShard _ bytes state).trans (.of_unchanged rfl rfl)
          exact first.trans wrote
        · rw [← ended]
          simp only [works, true_and]
          cases ((self.storeShards ns blobId (index + 1) rest).run
            (faultyWorld env shardMap faults left) { written with tick := ticks }).1 with
          | ok shards => simp [Except.map]
          | error failure => simp [Except.map]
      · rw [putShard]
        rcases run_of_fails _ question (fun _ => rfl) works _ with ⟨failure, failed⟩
        rw [failed]
        simp only [works, false_and, iff_false]
        refine ⟨.of_unchanged rfl rfl, ?_, ?_⟩
        · rintro ⟨shards, impossible⟩
          cases impossible
        · intro symbol found
          rcases Option.some.inj found with rfl
          exact fun worksToo => absurd worksToo works

theorem storeShards_ended {index : ℕ} {word : List Bytes} {result : Except Failure (List Shard)}
    (ran : (self.storeShards ns blobId index word).run (faultyWorld env shardMap faults left)
      state = (result, last)) :
    Wrote ns blobId state last ∧
      ((∃ shards, result = .ok shards) ↔ Writable faults ns blobId index word) ∧
      ∀ bytes, word[0]? = some bytes →
        faults.Works (.putShard ⟨ns, blobId, UInt16.ofNat index⟩ bytes) →
        (last.anchor ⟨ns, blobId, UInt16.ofNat index⟩).isSome := by
  obtain rfl : _ = result := congrArg Prod.fst ran
  obtain rfl : _ = last := congrArg Prod.snd ran
  exact storeShards_run_faulty index word state

theorem storeShards_run_of_fails {index : ℕ} {bytes : Bytes} (rest : List Bytes)
    (fails : ¬faults.Works (.putShard ⟨ns, blobId, UInt16.ofNat index⟩ bytes)) :
    ∃ failure, (self.storeShards ns blobId index (bytes :: rest)).run
      (faultyWorld env shardMap faults left) state = (.error failure, state.ticked 1) := by
  rw [storeShards, putShard]
  exact run_of_fails _ question (fun _ => rfl) fails _

/-! ## The whole put -/

/-- Every shard on the anchor belongs to a manifest, and so counts towards the usage of its
namespace. -/
def Claimed (state : World ShardMap) : Prop :=
  ∀ ref, (state.anchor ref).isSome → (state.store.getManifest ref.ns ref.blobId).isSome

/-- If the put failed, the anchor and the store are as before; and no shard is left without a
manifest. -/
def Traceless (state : World ShardMap) (ended : Except Failure BlobId × World ShardMap) : Prop :=
  (∀ failure, ended.1 = .error failure →
    ended.2.anchor = state.anchor ∧ ended.2.store = state.store) ∧
  (Claimed state → Claimed ended.2)

theorem traceless_of_unchanged {ended : Except Failure BlobId × World ShardMap}
    (anchor : ended.2.anchor = state.anchor) (store : ended.2.store = state.store) :
    Traceless state ended := by
  refine ⟨fun _ _ => ⟨anchor, store⟩, ?_⟩
  intro claimed ref present
  rw [store]
  rw [anchor] at present
  exact claimed ref present

theorem works_putManifest_iff {manifest : Manifest} :
    faults.Works (.putManifest manifest) ↔ faults.manifest manifest.ns manifest.blobId = none := by
  simp only [Faults.Works, Faults.answer, Faults.error, PortCall.failed]
  cases faults.manifest manifest.ns manifest.blobId with
  | none => simp
  | some error => simp

/-- The blob id which a put in this state draws, once it is admitted. -/
def drawn (env : Environment) (state : World ShardMap) : BlobId :=
  ⟨env.freshId (state.tick + 5) "blob"⟩

/-- The part of a put after the encoding. -/
def record (self : PutBackup) (ns : NamespaceId) (contract : AppContract) (ciphertext : Slice)
    (blobId : BlobId) (word : List Bytes) : UseCase BlobId := do
  let recorded ← self.storeShards ns blobId 0 word
  let time ← now
  putManifest (Manifest.new blobId ns contract.erasure recorded (sliceLen ciphertext) time)
  pure blobId

theorem store_run_faulty :
    (self.store ns contract ciphertext).run (faultyWorld env shardMap faults left)
        (state.ticked 5) =
      (do
        let word ← Program.done (self.erasure.encode ciphertext.bytes contract.erasure)
        self.record ns contract ciphertext (drawn env state) word : UseCase BlobId).run
          (faultyWorld env shardMap faults left) (state.ticked 6) := by
  rw [store, newId, run_of_works _ (fun answer => .ok answer) (Faults.works_newId _) rfl]
  rfl

variable (contract ciphertext) in
/-- The end of a put whose shards could all be written. -/
theorem record_run_of_written {word : List Bytes} {shards : List Shard} {middle : World ShardMap}
    (written : (self.storeShards ns blobId 0 word).run (faultyWorld env shardMap faults left)
      state = (.ok shards, middle)) :
    (faults.manifest ns blobId = none ∧ ∃ manifest : Manifest, manifest.ns = ns ∧
        manifest.blobId = blobId ∧
        (self.record ns contract ciphertext blobId word).run (faultyWorld env shardMap faults left)
            state =
          (.ok blobId, { middle.ticked 2 with store := middle.store.putManifest manifest })) ∨
      faults.manifest ns blobId ≠ none ∧ ∃ failure,
        (self.record ns contract ciphertext blobId word).run (faultyWorld env shardMap faults left)
            state = (.error failure, middle.ticked 2) := by
  let manifest := Manifest.new blobId ns contract.erasure shards (sliceLen ciphertext)
    (env.clock middle.tick)
  have works : faults.Works (.putManifest manifest) ↔ faults.manifest ns blobId = none :=
    works_putManifest_iff
  rw [record, Program.run_bind_of_ok written, now,
    run_of_works _ (fun answer => .ok answer) Faults.works_now rfl, putManifest]
  by_cases recorded : faults.manifest ns blobId = none
  · left
    refine ⟨recorded, manifest, rfl, rfl, ?_⟩
    exact run_of_works (.putManifest manifest) question (works.mpr recorded) rfl _
  · right
    refine ⟨recorded, ?_⟩
    exact run_of_fails (.putManifest manifest) question (fun _ => rfl)
      (fun impossible => recorded (works.mp impossible)) _

theorem Wrote.claimed {middle : World ShardMap} {manifest : Manifest}
    (wrote : Wrote ns blobId state middle) (sameNs : manifest.ns = ns)
    (sameBlob : manifest.blobId = blobId) (claimed : Claimed state) :
    Claimed { middle.ticked 2 with store := middle.store.putManifest manifest } := by
  intro ref present
  change ((middle.store.putManifest manifest).getManifest ref.ns ref.blobId).isSome
  by_cases own : (ref.ns, ref.blobId) = (manifest.ns, manifest.blobId)
  · rcases Prod.mk.inj own with ⟨refNs, refBlob⟩
    rw [refNs, refBlob, MemoryMetadataStore.getManifest_putManifest_self]
    rfl
  · rw [MemoryMetadataStore.getManifest_putManifest_of_ne _ _ own, wrote.store]
    apply claimed
    rw [sameNs, sameBlob] at own
    rw [← wrote.others ref own]
    exact present

/-- Once its first shard is written, a put leaves no trace of a failure exactly if the other
shards and the manifest can be written. -/
theorem record_traceless_iff {bytes : Bytes} {rest : List Bytes}
    (fresh : state.anchor ⟨ns, blobId, 0⟩ = none)
    (works : faults.Works (.putShard ⟨ns, blobId, 0⟩ bytes)) :
    Traceless state ((self.record ns contract ciphertext blobId (bytes :: rest)).run
        (faultyWorld env shardMap faults left) state) ↔
      Writable faults ns blobId 1 rest ∧ faults.manifest ns blobId = none := by
  rcases ran : (self.storeShards ns blobId 0 (bytes :: rest)).run
    (faultyWorld env shardMap faults left) state with ⟨result, middle⟩
  rcases storeShards_ended ran with ⟨wrote, ended, first⟩
  rw [writable_cons] at ended
  have there : (middle.anchor ⟨ns, blobId, 0⟩).isSome := first bytes rfl works
  have changed : middle.anchor ≠ state.anchor := by
    intro same
    rw [same, fresh] at there
    cases there
  cases result with
  | error failure =>
      have unwritable : ¬Writable faults ns blobId 1 rest := by
        intro writable
        rcases ended.mpr ⟨works, writable⟩ with ⟨shards, impossible⟩
        cases impossible
      rw [record, Program.run_bind_of_error ran]
      refine iff_of_false (fun traceless => ?_) (fun done => unwritable done.1)
      exact changed (traceless.1 failure rfl).1
  | ok shards =>
      have writable := (ended.mp ⟨shards, rfl⟩).2
      rcases record_run_of_written ciphertext contract ran with
        ⟨recorded, manifest, sameNs, sameBlob, finished⟩ | ⟨unrecorded, failure, finished⟩
      · rw [finished]
        refine iff_of_true ⟨by simp, ?_⟩ ⟨writable, recorded⟩
        exact wrote.claimed sameNs sameBlob
      · rw [finished]
        refine iff_of_false (fun traceless => ?_) (fun done => unrecorded done.2)
        exact changed (traceless.1 failure rfl).1

/-- The part of a put which can no longer be undone goes through: if the put is admitted and its
first shard is written, then so are the other shards and the manifest. -/
def Completes (self : PutBackup) (env : Environment) (faults : Faults) (state : World ShardMap)
    (ns : NamespaceId) (token : CapabilityToken) (ciphertext : Slice) : Prop :=
  ∀ contract bytes rest, Admits env faults state ns token ciphertext contract →
    self.erasure.encode ciphertext.bytes contract.erasure = .ok (bytes :: rest) →
    faults.Works (.putShard ⟨ns, drawn env state, 0⟩ bytes) →
    Writable faults ns (drawn env state) 1 rest ∧ faults.manifest ns (drawn env state) = none

/-- A put which writes no shard leaves no trace of a failure. -/
theorem record_traceless_of_empty :
    Traceless state ((self.record ns contract ciphertext blobId []).run
      (faultyWorld env shardMap faults left) state) := by
  have written : (self.storeShards ns blobId 0 []).run (faultyWorld env shardMap faults left)
      state = (.ok [], state) := rfl
  rcases record_run_of_written ciphertext contract written with
    ⟨-, manifest, sameNs, sameBlob, finished⟩ | ⟨-, failure, finished⟩
  · rw [finished]
    refine ⟨by simp, ?_⟩
    exact (storeShards_ended written).1.claimed sameNs sameBlob
  · rw [finished]
    exact traceless_of_unchanged rfl rfl

theorem store_traceless_iff (fresh : state.anchor ⟨ns, drawn env state, 0⟩ = none) :
    Traceless state ((self.store ns contract ciphertext).run (faultyWorld env shardMap faults left)
        (state.ticked 5)) ↔
      ∀ bytes rest, self.erasure.encode ciphertext.bytes contract.erasure = .ok (bytes :: rest) →
        faults.Works (.putShard ⟨ns, drawn env state, 0⟩ bytes) →
        Writable faults ns (drawn env state) 1 rest ∧
          faults.manifest ns (drawn env state) = none := by
  rw [store_run_faulty]
  cases encoded : self.erasure.encode ciphertext.bytes contract.erasure with
  | error failure => exact iff_of_true (traceless_of_unchanged rfl rfl) (by simp)
  | ok word =>
      rw [Program.done_ok_bind]
      change Traceless (state.ticked 6) _ ↔ _
      cases word with
      | nil => exact iff_of_true record_traceless_of_empty (by simp)
      | cons bytes rest =>
          by_cases works : faults.Works (.putShard ⟨ns, drawn env state, 0⟩ bytes)
          · rw [record_traceless_iff (by exact fresh) works]
            constructor
            · intro finished symbol others same
              cases same
              exact fun _ => finished
            · intro finishes
              exact finishes bytes rest rfl works
          · refine iff_of_true ?_ ?_
            · have failed : ∃ failure, (self.storeShards ns (drawn env state) 0
                  (bytes :: rest)).run (faultyWorld env shardMap faults left)
                    (state.ticked 6) = (.error failure, (state.ticked 6).ticked 1) :=
                storeShards_run_of_fails rest works
              rcases failed with ⟨failure, failed⟩
              rw [record, Program.run_bind_of_error failed]
              exact traceless_of_unchanged rfl rfl
            · intro symbol others same worksToo
              cases same
              exact absurd worksToo works

/-- A put leaves no trace of a failure exactly if no port fails after its first write. -/
theorem failed_put_leaves_no_trace_iff (self : PutBackup) (env : Environment) (faults : Faults)
    (left : NamespaceId → BlobId → ShardMap → ShardMap) (state : World ShardMap)
    (ns : NamespaceId) (token : CapabilityToken) (ciphertext : Slice)
    (fresh : state.anchor ⟨ns, drawn env state, 0⟩ = none) :
    Traceless state ((self.execute ns token ciphertext).run
        (faultyWorld env shardMap faults left) state) ↔
      self.Completes env faults state ns token ciphertext := by
  rw [execute_eq]
  rcases ran : (precheck ns token ciphertext).run (faultyWorld env shardMap faults left) state with
    ⟨result, middle⟩
  cases result with
  | error failure =>
      rw [Program.run_bind_of_error ran]
      refine iff_of_true ?_ ?_
      · have reads : ∃ ticks, ((precheck ns token ciphertext).run
            (faultyWorld env shardMap faults left) state).2 = { state with tick := ticks } :=
          readOnly_run_faulty (precheck_obeys ns token ciphertext) state
        rcases reads with ⟨ticks, same⟩
        rw [ran] at same
        subst same
        exact traceless_of_unchanged rfl rfl
      · intro contract bytes rest admits
        cases ran.symm.trans (precheck_run_ok_iff.mpr ⟨admits, rfl⟩)
  | ok contract =>
      rcases precheck_run_ok_iff.mp ran with ⟨admits, rfl⟩
      rw [Program.run_bind_of_ok ran, store_traceless_iff fresh]
      constructor
      · intro finishes other bytes rest admitsToo
        rcases Option.some.inj (admits.known.symm.trans admitsToo.known) with rfl
        exact finishes bytes rest
      · intro completes bytes rest
        exact completes contract bytes rest admits

/-! ## A put whose manifest cannot be written -/

/-- The metadata service goes away before the manifest is written. -/
def manifestFault : Faults :=
  ⟨fun _ _ => some (.unavailable "coordinator unreachable"), fun _ => none⟩

def sampleWriter : PutBackup :=
  replicatingNode.put ⟨false, [], ⟨none, false⟩⟩

def emptyAnchor : World ShardMap :=
  ⟨sampleStore ⟨10, 10⟩ ⟨0, 0⟩, fun _ => none, [], 0⟩

/-- The usage cannot be read. -/
def usageFault : Faults :=
  ⟨fun _ _ => none, fun call =>
    if call = .namespaceUsage ⟨"ns-1"⟩ then some (.unavailable "coordinator unreachable") else none⟩

theorem failed_put_leaves_no_trace_unread :
    Traceless emptyAnchor ((sampleWriter.execute ⟨"ns-1"⟩ (sampleToken .put) (oneByte 7)).run
      (faultyWorld sampleEnvironment shardMap usageFault fun _ _ anchor => anchor)
      emptyAnchor) := by
  apply (failed_put_leaves_no_trace_iff sampleWriter sampleEnvironment usageFault
    (fun _ _ anchor => anchor) emptyAnchor ⟨"ns-1"⟩ (sampleToken .put) (oneByte 7) rfl).mpr
  intro contract bytes rest admits
  exact absurd admits.usageWorks (by decide +kernel)

/-- The put fails, and its two shards stay on the anchor. -/
theorem failed_put_leaves_shards :
    ¬Traceless emptyAnchor ((sampleWriter.execute ⟨"ns-1"⟩ (sampleToken .put) (oneByte 7)).run
      (faultyWorld sampleEnvironment shardMap manifestFault fun _ _ anchor => anchor)
      emptyAnchor) := by
  intro traceless
  have unchanged := (traceless.1 (.port (.unavailable "coordinator unreachable")) rfl).1
  have shard := congrFun unchanged ⟨⟨"ns-1"⟩, ⟨"blob-5"⟩, 0⟩
  exact absurd shard (by decide +kernel)

end PutBackup

end VaultMesh
