import VaultMesh.Durability
import VaultMesh.MeshReads

/-!
# Restoring and repairing the same blob

A restore asks the peers first and the anchor second, and stores what it gets by
position. A repair reads the anchor first and borrows from the peers by index,
and only until `k` shards are there. Over a mesh whose answers do not change the
two agree: both succeed exactly if at least `k` shards have a valid copy at some
place which a restore asks (`GetBackup.Finds`).
-/

namespace VaultMesh

open Interaction Coding

/-- Every peer always gives the same answer about the same shard. -/
def Environment.Steady (env : Environment) : Prop :=
  ∀ tick tick' peer ref, env.fetch tick peer ref = env.fetch tick' peer ref

/-- Some place which a restore asks has a valid copy of the shard. -/
def GetBackup.Finds (reader : GetBackup) (env : Environment) (ns : NamespaceId) (blobId : BlobId)
    (state : World ShardMap) (shard : Shard) : Prop :=
  ∃ location, reader.Asks shard location ∧
    HasCopy (world env shardMap) reader.sha256Hex state ⟨ns, blobId, shard.index⟩ shard location

variable {env : Environment} {ns : NamespaceId} {blobId : BlobId} {word : List Bytes} {node : Node}
  {manifest : Manifest} {ciphertext : Bytes} {state : World ShardMap} {transport : Bool}

theorem Environment.Steady.hasCopy_congr (steady : env.Steady) {sha256Hex : Bytes → String}
    {ref : ShardRef} {shard : Shard} {moment : World ShardMap} (same : moment.anchor = state.anchor)
    (location : ShardLocation) :
    HasCopy (world env shardMap) sha256Hex moment ref shard location ↔
      HasCopy (world env shardMap) sha256Hex state ref shard location := by
  cases location with
  | anchor => exact hasCopy_anchor_congr same
  | peer peer =>
      simp only [HasCopy, copyAt, world_answer_fst, World.reply,
        steady moment.tick state.tick peer ref]

theorem hasCopy_anchor_iff {sha256Hex : Bytes → String} {shard : Shard} :
    HasCopy (world env shardMap) sha256Hex state ⟨ns, blobId, shard.index⟩ shard .anchor ↔
      (RepairShards.validCopy sha256Hex state.anchor ns blobId shard).isSome := by
  simp only [HasCopy, copyAt, world_answer_fst, World.reply, shardMap, ShardMap.read,
    RepairShards.validCopy]
  cases state.anchor ⟨ns, blobId, shard.index⟩ with
  | none => simp
  | some bytes => simp [Option.isSome_filter]

/-! ## The slots of a restore -/

/-- A restore fills exactly the slots of the shards which it finds somewhere. -/
theorem le_filled_iff_finds (steady : env.Steady) {slots : List (Option Bytes)}
    {moments : List (World ShardMap)} {recorded : List Shard}
    (same : ∀ moment ∈ moments, moment.anchor = state.anchor)
    (outcomes : List.Forall₂ (GetBackup.SlotOutcome (world env shardMap) (node.get transport) ns
      blobId moments) recorded slots) (count : ℕ) :
    count ≤ filled slots ↔
      AtLeast count ((node.get transport).Finds env ns blobId state) recorded := by
  apply le_filled_iff_atLeast outcomes
  · intro shard bytes outcome
    rcases outcome.sound bytes rfl with ⟨hash, moment, visited, location, asked, copy⟩
    refine ⟨location, asked, ?_⟩
    apply (steady.hasCopy_congr (same moment visited) location).mp
    exact ⟨bytes, copy, hash⟩
  · rintro shard outcome ⟨location, asked, copy⟩
    rcases outcome.complete rfl location asked with ⟨moment, visited, missing⟩
    exact missing ((steady.hasCopy_congr (same moment visited) location).mpr copy)

/-! ## The slots of a repair -/

namespace RepairShards

theorem mem_badIndices_iff {sha256Hex : Bytes → String} {shards : ShardMap} {recorded : List Shard}
    (nodup : (recorded.map Shard.index).Nodup) {shard : Shard} (present : shard ∈ recorded) :
    shard.index ∈ badIndices sha256Hex shards ns blobId recorded ↔
      validCopy sha256Hex shards ns blobId shard = none := by
  simp only [badIndices, List.mem_map, List.mem_filter, Option.isNone_iff_eq_none]
  constructor
  · rintro ⟨other, ⟨listed, bad⟩, sameIndex⟩
    rcases List.inj_on_of_nodup_map nodup listed present sameIndex with rfl
    exact bad
  · intro bad
    exact ⟨shard, ⟨present, bad⟩, rfl⟩

theorem finds_of_validCopy {shard : Shard} {bytes : Bytes}
    (copy : validCopy node.sha256Hex state.anchor ns blobId shard = some bytes) :
    node.sha256Hex bytes = shard.sha256 ∧
      (node.get transport).Finds env ns blobId state shard := by
  refine ⟨(validCopy_eq_some copy).2, .anchor, trivial, ?_⟩
  apply hasCopy_anchor_iff.mpr
  exact Option.isSome_of_eq_some copy

theorem le_filled_readSlots_iff (env : Environment) (recorded : List Shard) (count : ℕ) :
    count ≤ filled (recorded.map (validCopy node.sha256Hex state.anchor ns blobId)) ↔
      AtLeast count ((node.get false).Finds env ns blobId state) recorded := by
  have related : List.Forall₂
      (fun shard slot => slot = validCopy node.sha256Hex state.anchor ns blobId shard)
      recorded (recorded.map (validCopy node.sha256Hex state.anchor ns blobId)) := by
    rw [List.forall₂_map_right_iff, List.forall₂_same]
    exact fun _ _ => rfl
  apply le_filled_iff_atLeast related
  · intro shard bytes copy
    exact (finds_of_validCopy copy.symm).2
  · rintro shard missing ⟨location, asked, copy⟩
    cases location with
    | anchor =>
        have valid := hasCopy_anchor_iff.mp copy
        simp [Node.get, ← missing] at valid
    | peer peer => simp [Node.get, GetBackup.Asks] at asked

/-- What a slot says about its shard, once a repair has borrowed what it wanted. -/
structure Borrowed (node : Node) (env : Environment) (ns : NamespaceId) (blobId : BlobId)
    (state : World ShardMap) (enough : Prop) (shard : Shard) (slot : Option Bytes) : Prop where
  sound : ∀ bytes, slot = some bytes → node.sha256Hex bytes = shard.sha256 ∧
    (node.get true).Finds env ns blobId state shard
  complete : slot = none → enough ∨ ¬(node.get true).Finds env ns blobId state shard

theorem borrowed_of_validCopy {enough : Prop} {shard : Shard} {bytes : Bytes}
    (copy : validCopy node.sha256Hex state.anchor ns blobId shard = some bytes) :
    Borrowed node env ns blobId state enough shard (some bytes) := by
  constructor
  · rintro _ ⟨⟩
    exact finds_of_validCopy copy
  · rintro ⟨⟩

/-- Asking the peers of a bad shard fills its slot exactly if a restore finds the shard. -/
theorem fetchReplica_borrows (steady : env.Steady) {shard : Shard}
    (bad : validCopy node.sha256Hex state.anchor ns blobId shard = none)
    {now : World ShardMap} (same : now.anchor = state.anchor) :
    ∃ slot last,
      (fetchReplica node.sha256Hex ⟨ns, blobId, shard.index⟩ shard shard.locations).run
          (world env shardMap) now = (.ok slot, last) ∧
        last.anchor = state.anchor ∧ last.store = now.store ∧
        ∀ enough, Borrowed node env ns blobId state enough shard slot := by
  rcases fetchReplica_run (world env shardMap) node.sha256Hex ⟨ns, blobId, shard.index⟩ shard
    shard.locations now with ⟨slot, ended, sound, complete⟩
  have asks : (fetchReplica node.sha256Hex ⟨ns, blobId, shard.index⟩ shard
      shard.locations).Obeys (fun _ => ReadOnly) [] fun _ _ => True :=
    fetchReplica_obeys (fun _ _ => trivial) node.sha256Hex shard shard.locations []
  rcases readOnly_run asks env shardMap now with ⟨⟨sameStore, sameAnchor⟩, within⟩
  refine ⟨slot, _, Prod.ext ended rfl, sameAnchor.trans same, sameStore, fun _ => ⟨?_, ?_⟩⟩
  · intro bytes found
    rcases sound bytes found with ⟨hash, moment, visited, peer, listed, copy⟩
    refine ⟨hash, .peer peer, ⟨rfl, listed⟩, ?_⟩
    apply (steady.hasCopy_congr ((within moment visited).2.trans same) _).mp
    exact ⟨bytes, copy, hash⟩
  · rintro missing
    right
    rintro ⟨location, asked, copy⟩
    cases location with
    | anchor =>
        have valid := hasCopy_anchor_iff.mp copy
        simp [Node.get, bad] at valid
    | peer peer =>
        rcases complete missing peer asked.2 with ⟨moment, visited, no⟩
        exact no ((steady.hasCopy_congr ((within moment visited).2.trans same) _).mpr copy)

/--
Borrowing from position `before.length` on. Either `k` slots are filled at the end, or
every slot still empty belongs to a shard which a restore does not find either.
-/
theorem backfill_run (steady : env.Steady) (k : ℕ) {bad : List UInt16} (recorded : List Shard)
    (listed : ∀ shard ∈ recorded, shard.index ∈ bad ↔
      validCopy node.sha256Hex state.anchor ns blobId shard = none)
    (before : List (Option Bytes))
    (position : ∀ place shard, recorded[place]? = some shard →
      shard.index.toNat = before.length + place)
    (now : World ShardMap) (same : now.anchor = state.anchor) :
    ∃ slots last,
      ((node.repair true).backfill ns blobId k bad recorded
          (before ++ recorded.map (validCopy node.sha256Hex state.anchor ns blobId))
          (filled (before ++ recorded.map (validCopy node.sha256Hex state.anchor ns blobId)))).run
            (world env shardMap) now = (.ok (before ++ slots), last) ∧
        last.anchor = state.anchor ∧ last.store = now.store ∧
        List.Forall₂ (Borrowed node env ns blobId state (k ≤ filled (before ++ slots)))
          recorded slots := by
  induction recorded generalizing before now with
  | nil => exact ⟨[], now, by simp [backfill], same, rfl, List.Forall₂.nil⟩
  | cons shard recorded ih =>
      rw [backfill]
      by_cases already : k ≤ filled (before ++
        (shard :: recorded).map (validCopy node.sha256Hex state.anchor ns blobId))
      · rw [if_pos already]
        refine ⟨_, now, rfl, same, rfl, ?_⟩
        rw [List.forall₂_map_right_iff, List.forall₂_same]
        intro other _
        constructor
        · intro bytes copy
          exact finds_of_validCopy copy
        · intro _
          exact Or.inl already
      · rw [if_neg already]
        have here : shard.index.toNat = before.length := position 0 shard rfl
        have later : ∀ (slot : Option Bytes) place other, recorded[place]? = some other →
            other.index.toNat = (before ++ [slot]).length + place := by
          intro slot place other found
          rw [position (place + 1) other (by simpa using found)]
          simp only [List.length_append, List.length_singleton]
          omega
        have goOn : ∀ (slot : Option Bytes) (moment : World ShardMap),
            moment.anchor = state.anchor → moment.store = now.store →
            (∀ enough, Borrowed node env ns blobId state enough shard slot) →
            ∃ slots last,
              ((node.repair true).backfill ns blobId k bad recorded
                (before ++ slot :: recorded.map (validCopy node.sha256Hex state.anchor ns blobId))
                (filled (before ++ slot :: recorded.map
                  (validCopy node.sha256Hex state.anchor ns blobId)))).run
                  (world env shardMap) moment = (.ok (before ++ slots), last) ∧
              last.anchor = state.anchor ∧ last.store = now.store ∧
              List.Forall₂ (Borrowed node env ns blobId state (k ≤ filled (before ++ slots)))
                (shard :: recorded) slots := by
          intro slot moment sameAnchor sameStore borrowed
          rcases ih (fun other mem => listed other (List.mem_cons_of_mem _ mem))
            (before ++ [slot]) (later slot) moment sameAnchor with
            ⟨slots, last, ran, lastAnchor, lastStore, rest⟩
          simp only [List.append_assoc, List.singleton_append] at ran rest
          exact ⟨slot :: slots, last, ran, lastAnchor, lastStore.trans sameStore,
            List.Forall₂.cons (borrowed _) rest⟩
        cases copy : validCopy node.sha256Hex state.anchor ns blobId shard with
        | some bytes =>
            have good : shard.index ∉ bad := by
              simp [listed shard List.mem_cons_self, copy]
            rw [if_pos good, List.map_cons, copy]
            exact goOn (some bytes) now same rfl fun _ => borrowed_of_validCopy copy
        | none =>
            have isBad : shard.index ∈ bad := (listed shard List.mem_cons_self).mpr copy
            rw [if_neg (not_not.mpr isBad), List.map_cons, copy]
            rcases fetchReplica_borrows steady copy same with
              ⟨slot, middle, asked, sameAnchor, sameStore, borrowed⟩
            have continued := goOn slot middle sameAnchor sameStore borrowed
            rw [Program.run_bind_of_ok (show (fetchReplica (node.repair true).sha256Hex
              ⟨ns, blobId, shard.index⟩ shard shard.locations).run (world env shardMap) now =
                (.ok slot, middle) from asked)]
            cases slot with
            | none => exact continued
            | some bytes =>
                simp only [here, List.length_append, List.length_cons, List.set_append_right _ _
                  (Nat.le_refl _), Nat.sub_self, List.set_cons_zero]
                rw [if_pos (by omega)]
                simpa [Nat.add_assoc] using continued

/-- In the end a repair has enough slots exactly if enough shards are found by a restore. -/
theorem backfillFromPeers_run (steady : env.Steady) (collisionFree : CollisionFree node.sha256Hex)
    (holds : node.Holds manifest ciphertext word) (transport : Bool) {bad : List UInt16}
    (classified : badIndices node.sha256Hex state.anchor ns blobId manifest.shards = bad)
    (now : World ShardMap) (same : now.anchor = state.anchor) :
    ∃ slots last,
      ((node.repair transport).backfillFromPeers ns blobId manifest
          (readSlots node manifest ns blobId state.anchor) bad).run (world env shardMap) now =
            (.ok slots, last) ∧
        last.anchor = state.anchor ∧ last.store = now.store ∧ Masks slots word ∧
        (manifest.erasure.k.toNat ≤ filled slots ↔
          AtLeast manifest.erasure.k.toNat ((node.get transport).Finds env ns blobId state)
            manifest.shards) := by
  unfold backfillFromPeers
  cases transport with
  | false =>
      refine ⟨_, now, rfl, same, rfl, masks_readSlots collisionFree holds state.anchor, ?_⟩
      exact le_filled_readSlots_iff env manifest.shards _
  | true =>
      have nodup := holds.encodes.records.nodup holds.few
      have position : ∀ place shard, manifest.shards[place]? = some shard →
          shard.index.toNat = ([] : List (Option Bytes)).length + place := by
        intro place shard found
        rcases holds.encodes.records.getElem? found with ⟨sameIndex, bytes, symbol, -⟩
        have inside := (List.getElem?_eq_some_iff.mp symbol).1
        have few := holds.few
        rw [sameIndex, UInt16.toNat_ofNat', List.length_nil]
        omega
      have listed : ∀ shard ∈ manifest.shards, shard.index ∈ bad ↔
          validCopy node.sha256Hex state.anchor ns blobId shard = none := by
        intro shard present
        rw [← classified]
        exact mem_badIndices_iff nodup present
      rcases backfill_run steady manifest.erasure.k.toNat manifest.shards listed [] position now
        same with
        ⟨slots, last, ran, sameAnchor, sameStore, borrowed⟩
      simp only [List.nil_append] at ran borrowed
      refine ⟨slots, last, ran, sameAnchor, sameStore, ?_, ?_, ?_⟩
      · apply holds.encodes.records.masks collisionFree
        refine borrowed.imp ?_
        intro shard slot outcome bytes filledWith
        exact (outcome.sound bytes filledWith).1
      · intro enough
        refine (atLeast_filled borrowed ?_).of_le enough
        intro shard bytes outcome
        exact (outcome.sound bytes rfl).2
      · intro enough
        by_contra few
        apply few
        apply le_filled_of_atLeast borrowed _ enough
        intro shard outcome
        exact (outcome.complete rfl).resolve_left few

/-- The valid copies on the anchor are among those which a restore finds. -/
theorem finds_of_readSlots {count : ℕ}
    (enough : count ≤ filled (readSlots node manifest ns blobId state.anchor)) :
    AtLeast count ((node.get transport).Finds env ns blobId state) manifest.shards := by
  refine ((le_filled_readSlots_iff env manifest.shards count).mp enough).imp ?_
  rintro shard _ ⟨location, asked, copy⟩
  cases location with
  | anchor => exact ⟨.anchor, trivial, copy⟩
  | peer peer => simp [Node.get, GetBackup.Asks] at asked

theorem length_badIndices_le_countP (sha256Hex : Bytes → String) (shards : ShardMap)
    (ns : NamespaceId) (blobId : BlobId) (recorded : List Shard) :
    (badIndices sha256Hex shards ns blobId recorded).length ≤
      recorded.countP fun shard =>
        decide (shard.index ∈ badIndices sha256Hex shards ns blobId recorded) := by
  rw [badIndices, List.length_map, ← List.countP_eq_length_filter]
  apply List.countP_mono_left
  intro shard present bad
  simp only [List.mem_map, List.mem_filter, decide_eq_true_eq]
  exact ⟨shard, ⟨present, bad⟩, rfl⟩

/--
A pass reports a blob as repairable exactly if enough shards are found by a restore. Then it
rewrites at least the shards which are bad on the anchor, and leaves the whole word there.
-/
theorem repair_run_steady (steady : env.Steady) (collisionFree : CollisionFree node.sha256Hex)
    (holds : node.Holds manifest ciphertext word) (transport : Bool)
    (found : state.store.getManifest ns blobId = some manifest) :
    ∃ report last,
      ((node.repair transport).execute ns blobId).run (world env shardMap) state =
          (.ok report, last) ∧
        (report.unrepairable = false ↔
          AtLeast manifest.erasure.k.toNat ((node.get transport).Finds env ns blobId state)
            manifest.shards) ∧
        (report.unrepairable = false →
          (badIndices node.sha256Hex state.anchor ns blobId manifest.shards).length ≤
              report.repaired ∧
            last.store = state.store ∧ last.anchor.Keeps ns blobId word ∅) := by
  rw [execute_run transport found]
  rcases badIs : badIndices node.sha256Hex state.anchor ns blobId manifest.shards with bad
  have healthy := healthy_eq_filled node manifest ns blobId state
  have rewritten := length_badIndices_le_countP node.sha256Hex state.anchor ns blobId
    manifest.shards
  rw [badIs] at healthy rewritten
  let classified : World ShardMap :=
    { state with tick := state.tick + 1 + manifest.shards.length }
  unfold settle
  dsimp only
  by_cases allGood : bad = []
  · rw [if_pos allGood]
    subst allGood
    have enough : manifest.erasure.k.toNat ≤
        filled (readSlots node manifest ns blobId state.anchor) := by
      rw [← healthy, List.length_nil, Nat.sub_zero, holds.length_shards]
      exact holds.valid.2
    refine ⟨_, classified, rfl, by simp [finds_of_readSlots enough], fun _ =>
      ⟨Nat.le_refl _, rfl, ?_⟩⟩
    exact keeps_of_noneBad collisionFree holds badIs
  · rw [if_neg allGood]
    by_cases reconstructable : manifest.isReconstructable (manifest.shards.length - bad.length)
    · rw [if_pos reconstructable]
      have enough : manifest.erasure.k.toNat ≤
          filled (readSlots node manifest ns blobId state.anchor) := by
        simpa [Manifest.isReconstructable, healthy] using reconstructable
      rcases rebuild_run env classified collisionFree holds transport
        (masks_readSlots collisionFree holds state.anchor) enough badIs with
        ⟨report, last, ran, repairable, -, repaired, sameStore, whole, -⟩
      refine ⟨report, last, ran, ?_, fun _ => ⟨?_, sameStore, whole⟩⟩
      · simp [repairable, finds_of_readSlots enough]
      · rw [repaired]
        exact rewritten
    · rw [if_neg reconstructable]
      rcases backfillFromPeers_run steady collisionFree holds transport badIs classified rfl with
        ⟨slots, borrowed, backfilled, sameAnchor, sameStore, masks, enough⟩
      rw [Program.run_bind_of_ok backfilled]
      by_cases many : manifest.erasure.k.toNat ≤ filled slots
      · rcases rebuild_run env borrowed collisionFree holds transport masks many
          (by rw [sameAnchor, badIs]) with
          ⟨report, last, ran, repairable, -, repaired, lastStore, whole, -⟩
        refine ⟨report, last, ran, ?_, fun _ => ⟨?_, lastStore.trans sameStore, whole⟩⟩
        · simp [repairable, ← enough, many]
        · rw [repaired]
          exact rewritten
      · have gaveUp : (node.repair transport).rebuild ns blobId manifest slots bad =
            pure ⟨blobId, manifest.shards.length, manifest.shards.length - bad.length, 0,
              bad.length, true⟩ := by
          rw [rebuild]
          simp [Manifest.isReconstructable, many]
        rw [gaveUp]
        exact ⟨_, borrowed, rfl, by simp [← enough, many], by simp⟩

end RepairShards

/-! ## Agreement -/

/--
Over a mesh whose answers do not change, a restore succeeds exactly if a repair does not
report the blob as unrepairable. If the restore misses shards, the repair rewrites at
least as many, and after it a restore misses none.
-/
theorem restore_and_repair_agree (collisionFree : CollisionFree node.sha256Hex) {mesh : Mesh}
    {ciphertext : Slice} (produced : (node.put mesh).Produced ns ciphertext manifest)
    (valid : manifest.erasure.Valid) (fit : node.library.Fit manifest.erasure)
    (steady : env.Steady) (transport : Bool)
    (stored : state.store.getManifest ns manifest.blobId = some manifest)
    {token : CapabilityToken} {app : AppId}
    (authorized : ((authorize ns token .get).run (world env shardMap) state).1 = .ok app) :
    ∃ report last,
      ((node.repair transport).execute ns manifest.blobId).run (world env shardMap) state =
          (.ok report, last) ∧
        ((∃ outcome, (((node.get transport).restore ns token manifest.blobId).run
            (world env shardMap) state).1 = .ok outcome) ↔ report.unrepairable = false) ∧
        ∀ outcome, (((node.get transport).restore ns token manifest.blobId).run
            (world env shardMap) state).1 = .ok outcome →
          outcome.shardsMissing ≤ report.repaired ∧
          ∀ (reader : CapabilityToken) (owner : AppId),
            ((authorize ns reader .get).run (world env shardMap) last).1 = .ok owner →
            ∃ again, (((node.get transport).restore ns reader manifest.blobId).run
                (world env shardMap) last).1 = .ok again ∧ again.shardsMissing = 0 := by
  rcases produced.encodes with ⟨word, encodes⟩
  have holds : node.Holds manifest ciphertext.bytes word := ⟨valid, fit, encodes⟩
  rcases RepairShards.repair_run_steady steady collisionFree holds transport stored with
    ⟨report, last, repaired, repairable, mended⟩
  rcases restore_run env collisionFree encodes stored transport authorized with
    ⟨slots, moments, restored, masks, same, outcomes⟩
  have finds := le_filled_iff_finds steady same outcomes
  have succeeds := (Node.decodeCollected_ok_iff holds transport masks).1
  refine ⟨report, last, repaired, ?_, ?_⟩
  · rw [restored, succeeds, finds, repairable]
  intro outcome ended
  rw [restored] at ended
  rcases Node.decodeCollected_eq_ok fit encodes masks ended with ⟨-, enough, rfl⟩
  rcases mended (repairable.mpr ((finds _).mp enough)) with ⟨rewritten, sameStore, whole⟩
  refine ⟨?_, ?_⟩
  · have more : filled (readSlots node manifest ns manifest.blobId state.anchor) ≤ filled slots :=
      (finds _).mpr (RepairShards.finds_of_readSlots (Nat.le_refl _))
    have split := RepairShards.length_badIndices node.sha256Hex state.anchor ns manifest.blobId
      manifest.shards
    simp only [readSlots] at more
    simp only
    omega
  · intro reader owner authorizedAgain
    have storedAgain : last.store.getManifest ns manifest.blobId = some manifest := by
      rw [sameStore]
      exact stored
    rcases restore_run env collisionFree encodes storedAgain transport authorizedAgain with
      ⟨slotsAgain, momentsAgain, ranAgain, masksAgain, sameAgain, outcomesAgain⟩
    have full : manifest.erasure.n.toNat ≤ filled slotsAgain := by
      apply le_filled_of_anchor sameAgain outcomesAgain
      simpa using holds.spared whole
    rw [ranAgain, Node.decodeCollected_of_enough holds transport masksAgain
      (holds.valid.2.trans full)]
    refine ⟨_, rfl, ?_⟩
    rw [holds.length_shards]
    exact Nat.sub_eq_zero_of_le full

/-- Here one shard is left on the anchor, and the answers of the only peer are wrong. -/
theorem restore_and_repair_agree_lyingWorld :
    (((replicatingNode.get true).restore ⟨"ns-1"⟩ (sampleToken .get) lyingManifest.blobId).run
      (world lyingEnvironment shardMap) lyingWorld).1 = .ok ⟨[7], 2, 1⟩ ∧
    ∃ report last,
      ((replicatingNode.repair true).execute ⟨"ns-1"⟩ lyingManifest.blobId).run
        (world lyingEnvironment shardMap) lyingWorld = (.ok report, last) ∧
      report.unrepairable = false ∧ 1 ≤ report.repaired := by
  have restored : (((replicatingNode.get true).restore ⟨"ns-1"⟩ (sampleToken .get)
      lyingManifest.blobId).run (world lyingEnvironment shardMap) lyingWorld).1 =
        .ok ⟨[7], 2, 1⟩ := by
    rfl
  have authorized : ((authorize ⟨"ns-1"⟩ (sampleToken .get) .get).run
      (world lyingEnvironment shardMap) lyingWorld).1 = .ok ⟨"app-1"⟩ := by
    rfl
  rcases restore_and_repair_agree collisionFree_sampleDigest lyingManifest_produced (by decide)
    (replicatingNode_fit rfl) (fun _ _ _ _ => rfl) true rfl authorized with
    ⟨report, last, ran, agree, missing⟩
  exact ⟨restored, report, last, ran, agree.mp ⟨_, restored⟩, (missing _ restored).1⟩

end VaultMesh
