import VaultMesh.Ledger
import VaultMesh.RepairPass

/-!
# The repair sweep

From time to time a node goes through all blobs which the store lists and runs
a repair on each of them, while reads and other repairs go on. The answers which
a repair gets are those of an anchor which other repairs are changing. What
counts is that good shards stay good: then a repair which is told of enough good
shards rewrites the others, and at its end it has been told of every shard that
it is good, or has written it.
-/

namespace VaultMesh

open Interaction Coding

/-! ## The sweep -/

/-- What a sweep counts. -/
structure SweepCounts where
  checked : ℕ
  repaired : ℕ
  unrepairable : ℕ
  deriving DecidableEq, Repr

namespace RepairSweep

/-- One blob of the sweep; if its repair fails this is only logged. -/
def sweepBlob (repair : RepairShards) (ns : NamespaceId) (blobId : BlobId)
    (counts : SweepCounts) : UseCase SweepCounts := do
  match ← (repair.execute ns blobId).attempt with
  | .ok report =>
      pure ⟨counts.checked + 1, counts.repaired + report.repaired,
        if report.unrepairable then counts.unrepairable + 1 else counts.unrepairable⟩
  | .error (.port _) => pure { counts with checked := counts.checked + 1 }
  | .error (.panicked message) => Program.fail (.panicked message)

def sweepBlobs (repair : RepairShards) (ns : NamespaceId) :
    List BlobId → SweepCounts → UseCase SweepCounts
  | [], counts => pure counts
  | blobId :: blobs, counts => do
      let counts ← sweepBlob repair ns blobId counts
      sweepBlobs repair ns blobs counts

/-- A namespace which cannot be listed counts as empty. -/
def sweepNamespaces (repair : RepairShards) :
    List NamespaceId → SweepCounts → UseCase SweepCounts
  | [], counts => pure counts
  | ns :: namespaces, counts => do
      let listed ← (listBlobs ns).attempt
      let counts ← sweepBlobs repair ns (listed.toOption.getD []) counts
      sweepNamespaces repair namespaces counts

/-- One turn of the loop of `spawn_repair_sweep`: the counts and the time to record, if the
namespaces could be listed. -/
def sweep (repair : RepairShards) : UseCase (Option (SweepCounts × Timestamp)) := do
  match ← listNamespaces.attempt with
  | .error _ => pure none
  | .ok namespaces => do
      let counts ← sweepNamespaces repair namespaces ⟨0, 0, 0⟩
      let time ← now
      pure (some (counts, time))

end RepairSweep

/-! ## Good shards -/

/-- What the store records comes from puts of this node. -/
def Recorded (node : Node) (store : MemoryMetadataStore) : Prop :=
  ∀ ns blobId manifest, store.getManifest ns blobId = some manifest →
    ∃ ciphertext word, node.Holds manifest ciphertext word

/-- The store records a blob of this node with these bytes as its shard at the address. -/
def Symbol (node : Node) (store : MemoryMetadataStore) (ref : ShardRef) (bytes : Bytes) : Prop :=
  ∃ manifest ciphertext word, store.getManifest ref.ns ref.blobId = some manifest ∧
    node.Holds manifest ciphertext word ∧ word[ref.index.toNat]? = some bytes

/-- The shard is what the store records. -/
def GoodShard (node : Node) (first : World ShardMap) (ref : ShardRef) : Prop :=
  ∃ bytes, Symbol node first.store ref bytes ∧ first.anchor ref = some bytes

section Symbols

variable {node : Node} {store : MemoryMetadataStore} {manifest : Manifest} {ciphertext : Bytes}
  {word : List Bytes} {ref : ShardRef} {bytes : Bytes}

/-- The shard of a position of the word. -/
theorem Node.Holds.exists_shard (holds : node.Holds manifest ciphertext word) {index : UInt16}
    (symbol : word[index.toNat]? = some bytes) :
    ∃ shard ∈ manifest.shards, shard.index = index ∧ shard.sha256 = node.sha256Hex bytes := by
  have inside := (List.getElem?_eq_some_iff.mp symbol).1
  have length := holds.encodes.records.length_eq
  have found : manifest.shards[index.toNat]? = some manifest.shards[index.toNat] := by
    simp [length, inside]
  rcases holds.encodes.records.getElem? found with ⟨sameIndex, other, symbolToo, hash⟩
  rcases Option.some.inj (symbol.symm.trans symbolToo) with rfl
  refine ⟨_, List.mem_of_getElem? found, ?_, hash⟩
  rw [sameIndex, Nat.zero_add, UInt16.ofNat_toNat]

theorem Symbol.of_holds (stored : store.getManifest ref.ns ref.blobId = some manifest)
    (holds : node.Holds manifest ciphertext word)
    (symbol : word[ref.index.toNat]? = some bytes) : Symbol node store ref bytes :=
  ⟨manifest, ciphertext, word, stored, holds, symbol⟩

/-- The manifest records the hash of the symbol. -/
theorem Symbol.recorded (symbol : Symbol node store ref bytes)
    (stored : store.getManifest ref.ns ref.blobId = some manifest)
    (holds : node.Holds manifest ciphertext word) {shard : Shard}
    (listed : shard ∈ manifest.shards) (sameIndex : shard.index = ref.index) :
    shard.sha256 = node.sha256Hex bytes := by
  rcases symbol with ⟨other, otherText, otherWord, storedToo, holdsToo, found⟩
  rcases Option.some.inj (stored.symm.trans storedToo) with rfl
  rcases holdsToo.exists_shard found with ⟨recorded, recordedListed, recordedIndex, hash⟩
  have same := List.inj_on_of_nodup_map (holds.encodes.records.nodup holds.few) listed
    recordedListed (sameIndex.trans recordedIndex.symm)
  rw [same, hash]

theorem Symbol.unique (collisionFree : CollisionFree node.sha256Hex) {other : Bytes}
    (symbol : Symbol node store ref bytes) (symbolToo : Symbol node store ref other) :
    bytes = other := by
  rcases symbolToo with ⟨manifest, ciphertext, word, stored, holds, found⟩
  rcases holds.exists_shard found with ⟨shard, listed, sameIndex, hash⟩
  exact collisionFree ((symbol.recorded stored holds listed sameIndex).symm.trans hash)

end Symbols

/-! ## Steady answers -/

/-- The answers of a store which stays as it is, and of an anchor which works and keeps what is
good. -/
def Steady (node : Node) (first : World ShardMap) : PortExchange → Prop
  | ⟨.getManifest ns blobId, answer⟩ => answer = .ok (first.store.getManifest ns blobId)
  | ⟨.listNamespaces, answer⟩ =>
      ∃ namespaces, answer = .ok namespaces ∧ namespaces.Perm first.store.listNamespaces
  | ⟨.listBlobs ns, answer⟩ => ∃ blobs, answer = .ok blobs ∧ blobs.Perm (first.store.listBlobs ns)
  | ⟨.getShard ref, answer⟩ => (answer = .error .notFound ∨ ∃ bytes, answer = .ok bytes) ∧
      ∀ bytes, Symbol node first.store ref bytes → first.anchor ref = some bytes →
        answer = .ok bytes
  | ⟨.putShard _ _, answer⟩ => answer = .ok ()
  | _ => True

def AllSteady (node : Node) (first : World ShardMap) (past : List PortExchange) : Prop :=
  ∀ made ∈ past, Steady node first made

/-- As long as the answers are steady, a program reads or writes what the store records. -/
def Tending (node : Node) (first : World ShardMap) (past : List PortExchange)
    (call : PortCall) : Prop :=
  AllSteady node first past →
    match call with
    | .putShard ref bytes => Symbol node first.store ref bytes
    | call => ReadOnly call

variable {node : Node} {first : World ShardMap} {ns : NamespaceId} {blobId : BlobId}
  {manifest : Manifest} {ciphertext : Bytes} {word : List Bytes} {past : List PortExchange}

theorem AllSteady.of_subset {past' : List PortExchange} (steady : AllSteady node first past')
    (subset : past ⊆ past') : AllSteady node first past :=
  fun made present => steady made (subset present)

theorem permits_tending : Permits (Tending node first) := by
  intro past call reads _
  cases call with
  | putShard ref bytes => exact reads.elim
  | _ => exact reads

/-- After answers which are not steady nothing is asked of a program. -/
theorem obeys_of_unsteady {α : Type} (unsteady : ¬AllSteady node first past)
    (post : List PortExchange → Except Failure α → Prop) (program : UseCase α) :
    program.Obeys (Tending node first) past
      fun past' result => AllSteady node first past' → post past' result := by
  have never : ∀ suffix, ¬AllSteady node first (past ++ suffix) := fun suffix steady =>
    unsteady (steady.of_subset (List.subset_append_left _ _))
  exact Program.obeys_of_forall (fun suffix _ steady => absurd steady (never suffix))
    (fun suffix _ steady => absurd steady (never suffix)) program

/-! ## One repair -/

namespace RepairShards

/-- How a repair sorts the shards: it has heard the bytes of the good ones, and the others are
lost. -/
inductive Classified (sha256Hex : Bytes → String) (heard : UInt16 → Bytes → Prop)
    (lost : UInt16 → Prop) : List Shard → List (Option Bytes) → List UInt16 → Prop where
  | nil : Classified sha256Hex heard lost [] [] []
  | good {shard : Shard} {shards : List Shard} {slots : List (Option Bytes)} {bad : List UInt16}
      {bytes : Bytes} (read : heard shard.index bytes) (hash : sha256Hex bytes = shard.sha256)
      (rest : Classified sha256Hex heard lost shards slots bad) :
      Classified sha256Hex heard lost (shard :: shards) (some bytes :: slots) bad
  | bad {shard : Shard} {shards : List Shard} {slots : List (Option Bytes)} {bad : List UInt16}
      (gone : lost shard.index) (rest : Classified sha256Hex heard lost shards slots bad) :
      Classified sha256Hex heard lost (shard :: shards) (none :: slots) (shard.index :: bad)

namespace Classified

variable {sha256Hex : Bytes → String} {heard : UInt16 → Bytes → Prop} {lost : UInt16 → Prop}
  {shards : List Shard} {slots : List (Option Bytes)} {bad : List UInt16}

theorem matching (classified : Classified sha256Hex heard lost shards slots bad) :
    List.Forall₂ (fun (shard : Shard) (slot : Option Bytes) =>
      (∀ bytes, slot = some bytes → sha256Hex bytes = shard.sha256) ∧
        (slot = none → lost shard.index)) shards slots := by
  induction classified with
  | nil => exact List.Forall₂.nil
  | good read hash rest ih =>
      refine List.Forall₂.cons ⟨?_, by simp⟩ ih
      intro bytes same
      rw [← Option.some.inj same, hash]
  | bad gone rest ih => exact List.Forall₂.cons ⟨by simp, fun _ => gone⟩ ih

theorem length_eq (classified : Classified sha256Hex heard lost shards slots bad) :
    filled slots + bad.length = shards.length := by
  induction classified with
  | nil => rfl
  | good read hash rest ih =>
      simp only [filled_cons_some, List.length_cons]
      omega
  | bad gone rest ih =>
      simp only [filled_cons_none, List.length_cons]
      omega

theorem subset (classified : Classified sha256Hex heard lost shards slots bad) :
    bad ⊆ shards.map Shard.index := by
  induction classified with
  | nil => exact List.Subset.refl _
  | good read hash rest ih => exact List.subset_cons_of_subset _ ih
  | bad gone rest ih => exact List.cons_subset_cons _ ih

theorem heard_of_not_mem (classified : Classified sha256Hex heard lost shards slots bad)
    {shard : Shard} (listed : shard ∈ shards) (notBad : shard.index ∉ bad) :
    ∃ bytes, heard shard.index bytes ∧ sha256Hex bytes = shard.sha256 := by
  induction classified with
  | nil => cases listed
  | good read hash rest ih =>
      rcases List.mem_cons.mp listed with rfl | later
      · exact ⟨_, read, hash⟩
      · exact ih later notBad
  | bad gone rest ih =>
      rw [List.mem_cons, not_or] at notBad
      rcases List.mem_cons.mp listed with rfl | later
      · exact absurd rfl notBad.1
      · exact ih later notBad.2

/-- Each bad shard is counted once. -/
theorem countP_eq (classified : Classified sha256Hex heard lost shards slots bad)
    (nodup : (shards.map Shard.index).Nodup) :
    shards.countP (fun shard => decide (shard.index ∈ bad)) = bad.length := by
  induction classified with
  | nil => rfl
  | @good shard shards slots bad bytes read hash rest ih =>
      rw [List.map_cons, List.nodup_cons] at nodup
      have outside : shard.index ∉ bad := fun inside => nodup.1 (rest.subset inside)
      rw [List.countP_cons_of_neg (by simpa using outside)]
      exact ih nodup.2
  | @bad shard shards slots bad gone rest ih =>
      rw [List.map_cons, List.nodup_cons] at nodup
      rw [List.countP_cons_of_pos (by simp), List.length_cons, ← ih nodup.2]
      congr 1
      apply List.countP_congr
      intro other listed
      have apart : other.index ≠ shard.index := by
        intro same
        exact nodup.1 (same ▸ List.mem_map_of_mem listed)
      simp [apart]

theorem mono {heard' : UInt16 → Bytes → Prop}
    (classified : Classified sha256Hex heard lost shards slots bad)
    (more : ∀ index bytes, heard index bytes → heard' index bytes) :
    Classified sha256Hex heard' lost shards slots bad := by
  induction classified with
  | nil => exact .nil
  | good read hash rest ih => exact .good (more _ _ read) hash ih
  | bad gone rest ih => exact .bad gone ih

end Classified

/-- The shard was read with these bytes. -/
def Heard (ns : NamespaceId) (blobId : BlobId) (past : List PortExchange) (index : UInt16)
    (bytes : Bytes) : Prop :=
  (⟨.getShard ⟨ns, blobId, index⟩, .ok bytes⟩ : PortExchange) ∈ past

/-- With steady answers, the shards found bad are not good. -/
theorem classify_steady (transport : Bool)
    (stored : first.store.getManifest ns blobId = some manifest)
    (holds : node.Holds manifest ciphertext word) {recorded : List Shard}
    (listed : recorded ⊆ manifest.shards) (past : List PortExchange) :
    ((node.repair transport).classify ns blobId recorded).Obeys (Tending node first) past
      fun past' result => AllSteady node first past' → ∃ slots bad, result = .ok (slots, bad) ∧
        Classified node.sha256Hex (Heard ns blobId past')
          (fun index => ¬GoodShard node first ⟨ns, blobId, index⟩) recorded slots bad := by
  induction recorded generalizing past with
  | nil => exact fun _ => ⟨[], [], rfl, .nil⟩
  | cons shard recorded ih =>
      rcases List.cons_subset.mp listed with ⟨here, rest⟩
      rw [classify]
      refine Program.Obeys.call_bind (permits_tending _ _ trivial) (by rintro _ _ ⟨⟩) ?_
      intro answer outcome went
      rcases Except.ok.inj went with rfl
      have steadyHere : ∀ {past' : List PortExchange},
          past ++ [⟨.getShard ⟨ns, blobId, shard.index⟩, answer⟩] ⊆ past' →
          AllSteady node first past' →
          Steady node first ⟨.getShard ⟨ns, blobId, shard.index⟩, answer⟩ :=
        fun grows steady => steady _ (grows (by simp))
      -- A good shard would have been answered with its bytes, and their hash is recorded.
      have lost : ∀ {past' : List PortExchange},
          past ++ [⟨.getShard ⟨ns, blobId, shard.index⟩, answer⟩] ⊆ past' →
          AllSteady node first past' →
          (∀ bytes, answer = .ok bytes → node.sha256Hex bytes ≠ shard.sha256) →
          ¬GoodShard node first ⟨ns, blobId, shard.index⟩ := by
        rintro past' grows steady other ⟨bytes, symbol, present⟩
        have told := (steadyHere grows steady).2 bytes symbol present
        exact other bytes told (symbol.recorded stored holds here rfl).symm
      have later := (ih rest (past ++ [⟨.getShard ⟨ns, blobId, shard.index⟩, answer⟩]))
      cases answer with
      | ok bytes =>
          refine later.bind ?_ ?_
          · intro suffix failure reached steady
            rcases reached steady with ⟨_, _, impossible, _⟩
            cases impossible
          · rintro suffix ⟨slots, bad⟩ reached
            dsimp only
            split
            · next hash =>
                intro steady
                rcases reached steady with ⟨_, _, same, classified⟩
                cases same
                exact ⟨_, _, rfl, .good (by simp [Heard]) hash classified⟩
            · next other =>
                intro steady
                rcases reached steady with ⟨_, _, same, classified⟩
                cases same
                refine ⟨_, _, rfl, .bad (lost (List.subset_append_left _ _) steady ?_) classified⟩
                intro told same
                rcases Except.ok.inj same with rfl
                exact other
      | error error =>
          have missing : ∀ {past' : List PortExchange},
              past ++ [⟨.getShard ⟨ns, blobId, shard.index⟩, .error error⟩] ⊆ past' →
              AllSteady node first past' → error = .notFound := by
            intro past' grows steady
            rcases (steadyHere grows steady).1 with none | ⟨bytes, impossible⟩
            · exact Except.error.inj none
            · cases impossible
          cases error with
          | notFound =>
              refine later.bind ?_ ?_
              · intro suffix failure reached steady
                rcases reached steady with ⟨_, _, impossible, _⟩
                cases impossible
              · rintro suffix ⟨slots, bad⟩ reached steady
                rcases reached steady with ⟨_, _, same, classified⟩
                cases same
                exact ⟨_, _, rfl,
                  .bad (lost (List.subset_append_left _ _) steady (by simp)) classified⟩
          | _ => exact fun steady => by cases missing (List.Subset.refl _) steady

/-- From enough good shards a pass rebuilds the others. -/
theorem settle_repairs (holds : node.Holds manifest ciphertext word) (transport : Bool)
    {slots : List (Option Bytes)} {bad : List UInt16} (masks : Masks slots word)
    (counted : filled slots + bad.length = manifest.shards.length)
    (enough : manifest.erasure.k.toNat ≤ filled slots) :
    ((node.repair transport).settle ns blobId manifest slots bad).Obeys (fun _ _ => True) []
      fun _ result => ∀ report, result = .ok report → report.unrepairable = false := by
  have healthy : manifest.shards.length - bad.length = filled slots := by omega
  unfold settle
  dsimp only
  split
  · rintro _ ⟨⟩
    rfl
  · rw [healthy, Manifest.isReconstructable, decide_eq_true enough, if_pos rfl,
      rebuild_eq holds transport masks enough]
    have anything : ((node.repair transport).rewrite ns blobId bad word manifest.shards).Obeys
        (fun _ _ => True) [] fun _ _ => True :=
      Program.obeys_of_forall (fun _ _ => trivial) (fun _ _ => trivial) _
    refine anything.bind ?_ ?_
    · rintro _ _ _ _ ⟨⟩
    · rintro _ _ _ _ ⟨⟩
      rfl

/-- The shard was read and is as recorded, or it was written. -/
def Seen (sha256Hex : Bytes → String) (ns : NamespaceId) (blobId : BlobId)
    (past : List PortExchange) (shard : Shard) : Prop :=
  (∃ bytes, Heard ns blobId past shard.index bytes ∧ sha256Hex bytes = shard.sha256) ∨
    ∃ bytes, (⟨.putShard ⟨ns, blobId, shard.index⟩ bytes, .ok ()⟩ : PortExchange) ∈ past

/-- A report says that the blob is repairable if enough of its shards were good, and then every
shard was seen. -/
structure Cares (node : Node) (first : World ShardMap) (ns : NamespaceId) (blobId : BlobId)
    (manifest : Manifest) (past : List PortExchange) (report : RepairReport) : Prop where
  reports : ∃ bad, Reports manifest bad report
  seen : report.unrepairable = false →
    ∀ shard ∈ manifest.shards, Seen node.sha256Hex ns blobId past shard
  enough : AtLeast manifest.erasure.k.toNat
    (fun shard => GoodShard node first ⟨ns, blobId, shard.index⟩) manifest.shards →
    report.unrepairable = false

theorem Seen.mono {sha256Hex : Bytes → String} {past' : List PortExchange} {shard : Shard}
    (seen : Seen sha256Hex ns blobId past shard) (subset : past ⊆ past') :
    Seen sha256Hex ns blobId past' shard := by
  rcases seen with ⟨bytes, heard, hash⟩ | ⟨bytes, written⟩
  · exact Or.inl ⟨bytes, subset heard, hash⟩
  · exact Or.inr ⟨bytes, subset written⟩

theorem Cares.mono {past' : List PortExchange} {report : RepairReport}
    (cares : Cares node first ns blobId manifest past report) (subset : past ⊆ past') :
    Cares node first ns blobId manifest past' report :=
  ⟨cares.reports, fun repairable shard listed => (cares.seen repairable shard listed).mono subset,
    cares.enough⟩

theorem settle_steady (collisionFree : CollisionFree node.sha256Hex)
    (stored : first.store.getManifest ns blobId = some manifest)
    (holds : node.Holds manifest ciphertext word) (transport : Bool)
    {slots : List (Option Bytes)} {bad : List UInt16}
    (classified : Classified node.sha256Hex (Heard ns blobId past)
      (fun index => ¬GoodShard node first ⟨ns, blobId, index⟩) manifest.shards slots bad) :
    ((node.repair transport).settle ns blobId manifest slots bad).Obeys (Tending node first) past
      fun past' result => AllSteady node first past' → ∃ report, result = .ok report ∧
        Cares node first ns blobId manifest past' report := by
  have nodup := holds.encodes.records.nodup holds.few
  have masks : Masks slots word :=
    holds.encodes.records.masks collisionFree (classified.matching.imp fun _ _ both => both.1)
  have settles : ((node.repair transport).settle ns blobId manifest slots bad).Obeys
      (fun _ => Mending ns blobId bad word) [] (Settles ns blobId manifest bad) :=
    settle_settles collisionFree holds transport (classified.countP_eq nodup) masks
  have repairs : ((node.repair transport).settle ns blobId manifest slots bad).Obeys
      (fun _ _ => True) [] fun _ result => AtLeast manifest.erasure.k.toNat
        (fun shard => GoodShard node first ⟨ns, blobId, shard.index⟩) manifest.shards →
          ∀ report, result = .ok report → report.unrepairable = false := by
    by_cases enough : AtLeast manifest.erasure.k.toNat
        (fun shard => GoodShard node first ⟨ns, blobId, shard.index⟩) manifest.shards
    · have held := le_filled_of_atLeast classified.matching
        (fun shard both good => both.2 rfl good) enough
      exact (settle_repairs holds transport masks classified.length_eq held).conclude
        fun _ _ repairable _ => repairable
    · exact Program.obeys_of_forall (fun _ _ => trivial) (fun _ _ few => absurd few enough) _
  have both : ((node.repair transport).settle ns blobId manifest slots bad).Obeys
      (fun _ => Mending ns blobId bad word) [] _ :=
    (settles.and repairs).weaken fun _ _ either => either.1
  have shifted := both.shift past
  rw [List.append_nil] at shifted
  refine shifted.mono ?_ ?_
  · intro suffix call mending
    cases call with
    | putShard ref bytes =>
        rcases ref with ⟨ns', blobId', index⟩
        rcases mending with ⟨rfl, rfl, -, symbol⟩
        exact fun _ => Symbol.of_holds stored holds symbol
    | _ => exact permits_tending _ _ mending
  · rintro suffix result ⟨made, grown, settled, repairable⟩ steady
    have subset : made ⊆ past ++ suffix := by
      rw [grown]
      exact List.subset_append_right _ _
    cases result with
    | error failure =>
        rcases settled.failed failure rfl with ⟨ref, bytes, error, refused⟩
        cases steady _ (subset refused)
    | ok report =>
        refine ⟨report, rfl, ⟨bad, settled.reports report rfl⟩, ?_,
          fun enough => repairable enough report rfl⟩
        intro isRepairable shard listed
        by_cases isBad : shard.index ∈ bad
        · rcases settled.mended report rfl isRepairable shard listed isBad with ⟨bytes, written⟩
          exact Or.inr ⟨bytes, subset written⟩
        · rcases classified.heard_of_not_mem listed isBad with ⟨bytes, heard, hash⟩
          exact Or.inl ⟨bytes, List.subset_append_left _ _ heard, hash⟩

/-- With steady answers, a repair of a recorded blob ends with a report and sees to its shards. -/
theorem execute_steady (collisionFree : CollisionFree node.sha256Hex)
    (recorded : Recorded node first.store) (transport : Bool) (ns : NamespaceId)
    (blobId : BlobId) (past : List PortExchange) :
    ((node.repair transport).execute ns blobId).Obeys (Tending node first) past
      fun past' result => AllSteady node first past' →
        ∀ manifest, first.store.getManifest ns blobId = some manifest →
          ∃ report, result = .ok report ∧ Cares node first ns blobId manifest past' report := by
  rw [execute_eq, inspect, bind_assoc]
  refine Program.Obeys.call_bind (permits_tending _ _ trivial) ?_ ?_
  · intro answer failure failed steady
    have told := steady ⟨.getManifest ns blobId, answer⟩ (by simp)
    rw [Steady] at told
    rw [told] at failed
    cases failed
  intro answer found went
  rcases question_eq_ok went with rfl
  cases found with
  | none =>
      intro steady manifest stored
      have told := steady ⟨.getManifest ns blobId, .ok none⟩ (by simp)
      rw [Steady, stored] at told
      cases told
  | some manifest =>
      rw [okOr_some, pure_bind, bind_assoc]
      by_cases steadyNow : AllSteady node first
          (past ++ [⟨.getManifest ns blobId, .ok (some manifest)⟩])
      · have told := steadyNow ⟨.getManifest ns blobId, .ok (some manifest)⟩ (by simp)
        have stored : first.store.getManifest ns blobId = some manifest :=
          (Except.ok.inj told).symm
        rcases recorded ns blobId manifest stored with ⟨ciphertext, word, holds⟩
        refine (classify_steady transport stored holds (List.Subset.refl _) _).bind ?_ ?_
        · intro suffix failure reached steady
          rcases reached steady with ⟨_, _, impossible, _⟩
          cases impossible
        · rintro suffix ⟨slots, bad⟩ reached
          rw [pure_bind]
          by_cases steadyStill : AllSteady node first
              (past ++ [⟨.getManifest ns blobId, .ok (some manifest)⟩] ++ suffix)
          · rcases reached steadyStill with ⟨_, _, same, classified⟩
            cases same
            refine (settle_steady collisionFree stored holds transport classified).conclude ?_
            intro more result settled steady other storedToo
            rcases Option.some.inj (stored.symm.trans storedToo) with rfl
            exact settled steady
          · exact obeys_of_unsteady steadyStill _ _
      · exact obeys_of_unsteady steadyNow _ _

end RepairShards

/-! ## A whole sweep -/

/-- One blob of a sweep, with the report on it. -/
structure Visit where
  ns : NamespaceId
  blobId : BlobId
  report : RepairReport

def SweepCounts.plus (counts : SweepCounts) (visits : List Visit) : SweepCounts where
  checked := counts.checked + visits.length
  repaired := counts.repaired + (visits.map fun visit => visit.report.repaired).sum
  unrepairable := counts.unrepairable + visits.countP fun visit => visit.report.unrepairable

theorem SweepCounts.plus_append (counts : SweepCounts) (visits later : List Visit) :
    (counts.plus visits).plus later = counts.plus (visits ++ later) := by
  simp only [plus, List.length_append, List.map_append, List.sum_append, List.countP_append,
    Nat.add_assoc]

/-- The blobs which the store lists. -/
def MemoryMetadataStore.blobs (store : MemoryMetadataStore) : List (NamespaceId × BlobId) :=
  store.listNamespaces.flatMap fun ns => (store.listBlobs ns).map fun blobId => (ns, blobId)

namespace RepairSweep

/-- Every visit took care of its blob. -/
def Cared (node : Node) (first : World ShardMap) (past : List PortExchange)
    (visits : List Visit) : Prop :=
  ∀ visit ∈ visits, ∃ manifest, first.store.getManifest visit.ns visit.blobId = some manifest ∧
    RepairShards.Cares node first visit.ns visit.blobId manifest past visit.report

theorem Cared.mono {past' : List PortExchange} {visits : List Visit}
    (cared : Cared node first past visits) (subset : past ⊆ past') :
    Cared node first past' visits := by
  intro visit listed
  rcases cared visit listed with ⟨manifest, stored, cares⟩
  exact ⟨manifest, stored, cares.mono subset⟩

theorem Cared.append {visits later : List Visit} (cared : Cared node first past visits)
    (caredLater : Cared node first past later) : Cared node first past (visits ++ later) := by
  intro visit listed
  rcases List.mem_append.mp listed with before | after
  · exact cared visit before
  · exact caredLater visit after

variable (collisionFree : CollisionFree node.sha256Hex) (recorded : Recorded node first.store)
  (transport : Bool)

include collisionFree recorded

theorem sweepBlob_steady {ns : NamespaceId} {blobId : BlobId}
    (known : (first.store.getManifest ns blobId).isSome) (counts : SweepCounts)
    (past : List PortExchange) :
    (sweepBlob (node.repair transport) ns blobId counts).Obeys (Tending node first) past
      fun past' result => AllSteady node first past' → ∃ report,
        result = .ok (counts.plus [⟨ns, blobId, report⟩]) ∧
          Cared node first past' [⟨ns, blobId, report⟩] := by
  rcases Option.isSome_iff_exists.mp known with ⟨manifest, stored⟩
  rw [sweepBlob]
  refine (RepairShards.execute_steady collisionFree recorded transport ns blobId
    past).attempt.bind ?_ ?_
  · rintro suffix failure ⟨outcome, impossible, -⟩
    cases impossible
  · rintro suffix value ⟨outcome, same, reached⟩
    rcases Except.ok.inj same with rfl
    cases value with
    | ok report =>
        intro steady
        rcases reached steady manifest stored with ⟨_, sameReport, cares⟩
        rcases Except.ok.inj sameReport with rfl
        refine ⟨report, ?_, ?_⟩
        · cases unrepairable : report.unrepairable <;>
            simp [SweepCounts.plus, unrepairable]
        · intro visit listed
          rcases List.mem_singleton.mp listed with rfl
          exact ⟨manifest, stored, cares⟩
    | error failure =>
        have never : ¬AllSteady node first (past ++ suffix) := by
          intro steady
          rcases reached steady manifest stored with ⟨_, impossible, -⟩
          cases impossible
        cases failure with
        | port error => exact fun steady => absurd steady never
        | panicked message => exact fun steady => absurd steady never

theorem sweepBlobs_steady {ns : NamespaceId} {blobs : List BlobId}
    (known : ∀ blobId ∈ blobs, (first.store.getManifest ns blobId).isSome) (counts : SweepCounts)
    (past : List PortExchange) :
    (sweepBlobs (node.repair transport) ns blobs counts).Obeys (Tending node first) past
      fun past' result => AllSteady node first past' → ∃ visits,
        result = .ok (counts.plus visits) ∧
          visits.map (fun visit => (visit.ns, visit.blobId)) =
            blobs.map (fun blobId => (ns, blobId)) ∧ Cared node first past' visits := by
  induction blobs generalizing counts past with
  | nil => exact fun _ => ⟨[], rfl, rfl, by simp [Cared]⟩
  | cons blobId blobs ih =>
      rcases List.forall_mem_cons.mp known with ⟨here, rest⟩
      rw [sweepBlobs]
      refine (sweepBlob_steady collisionFree recorded transport here counts past).bind ?_ ?_
      · intro suffix failure reached steady
        rcases reached steady with ⟨_, impossible, -⟩
        cases impossible
      · intro suffix tallied reached
        by_cases steadyNow : AllSteady node first (past ++ suffix)
        · rcases reached steadyNow with ⟨report, same, cared⟩
          rcases Except.ok.inj same with rfl
          refine (ih rest _ (past ++ suffix)).conclude ?_
          intro more result settled steady
          rcases settled steady with ⟨visits, rfl, places, caredLater⟩
          refine ⟨⟨ns, blobId, report⟩ :: visits, ?_, ?_, ?_⟩
          · rw [SweepCounts.plus_append]
            rfl
          · rw [List.map_cons, List.map_cons, places]
          · exact (cared.mono (List.subset_append_left _ _)).append caredLater
        · exact obeys_of_unsteady steadyNow _ _

theorem sweepNamespaces_steady (namespaces : List NamespaceId) (counts : SweepCounts)
    (past : List PortExchange) :
    (sweepNamespaces (node.repair transport) namespaces counts).Obeys (Tending node first) past
      fun past' result => AllSteady node first past' → ∃ visits,
        result = .ok (counts.plus visits) ∧
          (visits.map fun visit => (visit.ns, visit.blobId)).Perm
            (namespaces.flatMap fun ns =>
              (first.store.listBlobs ns).map fun blobId => (ns, blobId)) ∧
          Cared node first past' visits := by
  induction namespaces generalizing counts past with
  | nil => exact fun _ => ⟨[], rfl, .refl _, by simp [Cared]⟩
  | cons ns namespaces ih =>
      rw [sweepNamespaces]
      refine Program.Obeys.call_bind (permits_tending _ _ trivial) (by rintro _ _ ⟨⟩) ?_
      intro answer listed went
      rcases Except.ok.inj went with rfl
      by_cases steadyHere : AllSteady node first (past ++ [⟨.listBlobs ns, answer⟩])
      · rcases steadyHere ⟨.listBlobs ns, answer⟩ (by simp) with ⟨blobs, rfl, perm⟩
        have known : ∀ blobId ∈ blobs, (first.store.getManifest ns blobId).isSome :=
          fun blobId inside => MemoryMetadataStore.mem_listBlobs.mp (perm.mem_iff.mp inside)
        refine (sweepBlobs_steady collisionFree recorded transport known counts _).bind ?_ ?_
        · intro suffix failure reached steady
          rcases reached steady with ⟨_, impossible, -⟩
          cases impossible
        · intro suffix tallied reached
          by_cases steadyNow : AllSteady node first
              (past ++ [⟨.listBlobs ns, .ok blobs⟩] ++ suffix)
          · rcases reached steadyNow with ⟨visits, same, places, cared⟩
            rcases Except.ok.inj same with rfl
            refine (ih _ _).conclude ?_
            intro more result settled steady
            rcases settled steady with ⟨later, rfl, placesLater, caredLater⟩
            refine ⟨visits ++ later, ?_, ?_, ?_⟩
            · rw [SweepCounts.plus_append]
            · rw [List.map_append, places, List.flatMap_cons]
              exact (perm.map _).append placesLater
            · exact (cared.mono (List.subset_append_left _ _)).append caredLater
          · exact obeys_of_unsteady steadyNow _ _
      · exact obeys_of_unsteady steadyHere _ _

/-- With steady answers, a sweep visits each listed blob once and counts what it reports. -/
theorem sweep_steady (past : List PortExchange) :
    (sweep (node.repair transport)).Obeys (Tending node first) past
      fun past' result => AllSteady node first past' → ∃ visits time,
        result = .ok (some ((⟨0, 0, 0⟩ : SweepCounts).plus visits, time)) ∧
          (visits.map fun visit => (visit.ns, visit.blobId)).Perm first.store.blobs ∧
          Cared node first past' visits := by
  rw [sweep]
  refine Program.Obeys.call_bind (permits_tending _ _ trivial) (by rintro _ _ ⟨⟩) ?_
  intro answer listed went
  rcases Except.ok.inj went with rfl
  by_cases steadyHere : AllSteady node first (past ++ [⟨.listNamespaces, answer⟩])
  · rcases steadyHere ⟨.listNamespaces, answer⟩ (by simp) with ⟨namespaces, rfl, perm⟩
    refine (sweepNamespaces_steady collisionFree recorded transport namespaces _ _).bind ?_ ?_
    · intro suffix failure reached steady
      rcases reached steady with ⟨_, impossible, -⟩
      cases impossible
    · intro suffix tallied reached
      refine Program.Obeys.call_bind (permits_tending _ _ trivial) (by rintro _ _ ⟨⟩) ?_
      intro told time went
      rcases Except.ok.inj went with rfl
      intro steady
      rcases reached (steady.of_subset (List.subset_append_left _ _)) with
        ⟨visits, same, places, cared⟩
      rcases Except.ok.inj same with rfl
      exact ⟨visits, _, rfl, places.trans (perm.flatMap_right _),
        cared.mono (List.subset_append_left _ _)⟩
  · exact obeys_of_unsteady steadyHere _ _

end RepairSweep

end VaultMesh
