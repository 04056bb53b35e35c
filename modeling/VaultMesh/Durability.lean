import VaultMesh.Restore

/-!
# Durability under bounded loss

A put leaves the whole word of its ciphertext on the anchor. As long as at most
`n - k` of the shards are lost between two repair passes, each pass reads enough
shards to decode the ciphertext, encodes it to the same word again, and writes
back exactly what was lost. The invariant is `ShardMap.Keeps`: outside the
shards hit since the last pass the anchor holds the word. It holds at every
moment, also between two calls of a pass, and it is enough for a restore.

Peers are never needed for this, so their answers do not matter.
-/

namespace VaultMesh

open Interaction Coding

/-- Outside `hit`, the anchor holds the word of the blob. -/
def ShardMap.Keeps (shards : ShardMap) (ns : NamespaceId) (blobId : BlobId) (word : List Bytes)
    (hit : Finset UInt16) : Prop :=
  ∀ index : UInt16, index ∉ hit → index.toNat < word.length →
    shards ⟨ns, blobId, index⟩ = word[index.toNat]?

variable {env : Environment} {ns : NamespaceId} {blobId : BlobId} {word : List Bytes}

/-! ## Put -/

namespace PutBackup

theorem replicate_run (env : Environment) (self : PutBackup) (ref : ShardRef) (bytes : Bytes)
    (state : World ShardMap) :
    ∃ placed last, (self.replicate ref bytes).run (world env shardMap) state = (.ok placed, last) ∧
      last.store = state.store ∧ last.anchor = state.anchor := by
  have obeys : (self.replicate ref bytes).Obeys (fun _ => ReadOnly) [] _ :=
    self.replicate_obeys (fun _ _ _ _ => trivial) ref bytes []
  rcases obeys.run (world env shardMap) state with ⟨placed, went⟩
  rcases (readOnly_run obeys env shardMap state).1 with ⟨sameStore, sameAnchor⟩
  exact ⟨placed, _, Prod.ext went rfl, sameStore, sameAnchor⟩

/-- Writing the shards of a word puts the whole word on the anchor. -/
theorem storeShards_run (env : Environment) (self : PutBackup) (ns : NamespaceId)
    (blobId : BlobId) (index : ℕ) (word : List Bytes) (few : index + word.length ≤ 65536)
    (state : World ShardMap) :
    ∃ shards last,
      (self.storeShards ns blobId index word).run (world env shardMap) state = (.ok shards, last) ∧
        last.store = state.store ∧ RecordsFrom self.sha256Hex index word shards ∧
        (∀ ref : ShardRef, ref.index.toNat < index → last.anchor ref = state.anchor ref) ∧
        ∀ place : UInt16, index ≤ place.toNat → place.toNat < index + word.length →
          last.anchor ⟨ns, blobId, place⟩ = word[place.toNat - index]? := by
  induction word generalizing index state with
  | nil =>
      refine ⟨[], state, rfl, rfl, trivial, fun _ _ => rfl, ?_⟩
      intro place lower upper
      simp only [List.length_nil] at upper
      omega
  | cons bytes rest ih =>
      simp only [List.length_cons] at few
      let ref : ShardRef := ⟨ns, blobId, UInt16.ofNat index⟩
      have written : (VaultMesh.putShard ref bytes).run (world env shardMap) state =
          (.ok (), state.after shardMap (.putShard ref bytes)) := rfl
      rcases replicate_run env self ref bytes (state.after shardMap (.putShard ref bytes))
        with ⟨placed, middle, replicated, sameStore, sameAnchor⟩
      rcases ih (index + 1) (by omega) middle with
        ⟨shards, last, stored, lastStore, records, below, inside⟩
      refine ⟨self.shardMeta index bytes placed :: shards, last, ?_, ?_, ⟨rfl, rfl, records⟩,
        ?_, ?_⟩
      · rw [storeShards, Program.run_bind_of_ok written, Program.run_bind_of_ok replicated,
          Program.run_bind_of_ok stored]
        rfl
      · rw [lastStore, sameStore]
        rfl
      · intro other lower
        rw [below other (by omega), sameAnchor]
        apply Function.update_of_ne
        rintro rfl
        simp only [ref, UInt16.toNat_ofNat'] at lower
        omega
      · intro place lower upper
        simp only [List.length_cons] at upper
        rcases Nat.eq_or_lt_of_le lower with same | later
        · have here : place = UInt16.ofNat index := by
            apply UInt16.toNat_inj.mp
            rw [UInt16.toNat_ofNat']
            omega
          rw [below ⟨ns, blobId, place⟩ (by simp only; omega), sameAnchor, ← same, Nat.sub_self]
          simp [World.after, AnchorModel.after, shardMap, ref, here]
        · rw [inside place later (by omega)]
          have shifted : ∃ offset, place.toNat - index = offset + 1 :=
            ⟨place.toNat - index - 1, by omega⟩
          rcases shifted with ⟨offset, shift⟩
          rw [shift, List.getElem?_cons_succ]
          congr 1
          omega

/-- A put which ends well made a manifest of its ciphertext and left the word on the anchor. -/
theorem store_run {node : Node} {mesh : Mesh} {contract : AppContract} {ciphertext : Slice}
    {state last : World ShardMap} (valid : contract.erasure.Valid)
    (fit : node.library.Fit contract.erasure)
    (ran : ((node.put mesh).store ns contract ciphertext).run (world env shardMap) state =
      (.ok blobId, last)) :
    ∃ manifest word, last.store.getManifest ns blobId = some manifest ∧
      node.Holds manifest ciphertext.bytes word ∧ last.anchor.Keeps ns blobId word ∅ := by
  rcases ReedSolomonCoder.encode_ok contract.erasure valid fit ciphertext.bytes with
    ⟨word, encoded, length, -, -⟩
  have few : 0 + word.length ≤ 65536 := by
    have bound := contract.erasure.n.toNat_lt
    omega
  rcases Program.run_bind_eq_ok ran with ⟨id, drawn, newIdRan, ran⟩
  rcases Program.run_bind_eq_ok ran with ⟨shards, coded, encodeRan, ran⟩
  rw [Program.run_done] at encodeRan
  rcases Prod.mk.inj encodeRan with ⟨sameWord, rfl⟩
  rcases Except.ok.inj (encoded.symm.trans sameWord) with rfl
  rcases storeShards_run env (node.put mesh) ns ⟨id⟩ 0 word few drawn with
    ⟨recorded, stored, storedRan, sameStore, records, -, whole⟩
  rw [Program.run_bind_of_ok storedRan] at ran
  let time := env.clock stored.tick
  let manifest := Manifest.new ⟨id⟩ ns contract.erasure recorded (sliceLen ciphertext) time
  have ended : (.ok ⟨id⟩, (stored.after shardMap .now).after shardMap (.putManifest manifest)) =
      ((.ok blobId, last) : Except Failure BlobId × World ShardMap) := ran
  rcases Prod.mk.inj ended with ⟨sameId, rfl⟩
  rcases Except.ok.inj sameId with rfl
  refine ⟨manifest, word, ?_, ⟨valid, fit, encoded, records, toNat_sliceLen ciphertext⟩, ?_⟩
  · exact MemoryMetadataStore.getManifest_putManifest_self stored.store manifest
  · intro index _ inside
    have symbol := whole index (Nat.zero_le _) (by omega)
    rw [Nat.sub_zero] at symbol
    exact symbol

theorem execute_run {node : Node} {mesh : Mesh} {token : CapabilityToken} {ciphertext : Slice}
    {first last : World ShardMap}
    (supported : ∀ app contract, first.store.getContract app = some contract →
      node.Supports contract)
    (ran : ((node.put mesh).execute ns token ciphertext).run (world env shardMap) first =
      (.ok blobId, last)) :
    ∃ manifest word, last.store.getManifest ns blobId = some manifest ∧
      node.Holds manifest ciphertext.bytes word ∧ last.anchor.Keeps ns blobId word ∅ := by
  rcases Program.run_bind_eq_ok ran with ⟨app, authorized, authorizeRan, ran⟩
  have sameStore : authorized.store = first.store := (authorize_run_unchanged authorizeRan).1
  rcases Program.run_bind_eq_ok ran with ⟨found, asked, contractRan, ran⟩
  have known : found = first.store.getContract app := by
    have answered : (.ok (authorized.store.getContract app), authorized.after shardMap
        (.getContract app)) = ((.ok found, asked) : Except Failure _ × World ShardMap) :=
      contractRan
    rw [sameStore] at answered
    exact (Except.ok.inj (Prod.mk.inj answered).1).symm
  cases found with
  | none =>
      rw [okOr_none] at ran
      cases ran
  | some contract =>
      rcases supported app contract known.symm with ⟨valid, fit⟩
      rw [okOr_some, pure_bind] at ran
      rcases Program.run_bind_eq_ok ran with ⟨usage, measured, -, ran⟩
      split at ran
      · exact store_run valid fit ran
      · cases ran

end PutBackup

/-! ## Repair -/

namespace RepairShards

def validCopy (sha256Hex : Bytes → String) (shards : ShardMap) (ns : NamespaceId)
    (blobId : BlobId) (shard : Shard) : Option Bytes :=
  (shards ⟨ns, blobId, shard.index⟩).filter fun bytes => decide (sha256Hex bytes = shard.sha256)

def badIndices (sha256Hex : Bytes → String) (shards : ShardMap) (ns : NamespaceId)
    (blobId : BlobId) (recorded : List Shard) : List UInt16 :=
  (recorded.filter fun shard => (validCopy sha256Hex shards ns blobId shard).isNone).map Shard.index

/-- One shard more is judged by its bytes on the anchor. -/
theorem classify_cons_run {handler : Handler ports (World ShardMap)} {self : RepairShards}
    {ns : NamespaceId} {blobId : BlobId} {shards : ShardMap} {shard : Shard}
    {recorded : List Shard} {state asked last : World ShardMap}
    (read : (VaultMesh.getShard ⟨ns, blobId, shard.index⟩).run handler state =
      (.ok (shards.read ⟨ns, blobId, shard.index⟩), asked))
    (rest : (self.classify ns blobId recorded).run handler asked =
      (.ok (recorded.map (validCopy self.sha256Hex shards ns blobId),
        badIndices self.sha256Hex shards ns blobId recorded), last)) :
    (self.classify ns blobId (shard :: recorded)).run handler state =
      (.ok ((shard :: recorded).map (validCopy self.sha256Hex shards ns blobId),
        badIndices self.sha256Hex shards ns blobId (shard :: recorded)), last) := by
  rw [classify, Program.run_bind_of_ok read]
  cases stored : shards ⟨ns, blobId, shard.index⟩ with
  | none =>
      simp only [ShardMap.read, stored, Program.run_bind_of_ok rest]
      simp [badIndices, validCopy, stored]
  | some bytes =>
      simp only [ShardMap.read, stored, Program.run_bind_of_ok rest]
      by_cases hash : self.sha256Hex bytes = shard.sha256
      · simp [badIndices, validCopy, stored, hash, Option.filter]
      · simp [badIndices, validCopy, stored, hash, Option.filter]

theorem classify_run (env : Environment) (self : RepairShards) (ns : NamespaceId)
    (blobId : BlobId) (recorded : List Shard) (state : World ShardMap) :
    (self.classify ns blobId recorded).run (world env shardMap) state =
      (.ok (recorded.map (validCopy self.sha256Hex state.anchor ns blobId),
        badIndices self.sha256Hex state.anchor ns blobId recorded),
        { state with tick := state.tick + recorded.length }) := by
  induction recorded generalizing state with
  | nil => rfl
  | cons shard recorded ih =>
      have asked : (VaultMesh.getShard ⟨ns, blobId, shard.index⟩).run (world env shardMap) state =
          (.ok (state.anchor.read ⟨ns, blobId, shard.index⟩),
            { state with tick := state.tick + 1 }) := rfl
      have rest := ih { state with tick := state.tick + 1 }
      simp only [Nat.add_assoc, Nat.add_comm 1] at rest
      exact classify_cons_run asked rest

theorem reReplicate_run (env : Environment) (self : RepairShards) (ref : ShardRef) (bytes : Bytes)
    (shard : Shard) (state : World ShardMap) :
    ∃ last, (self.reReplicate ref bytes shard).run (world env shardMap) state = (.ok (), last) ∧
      last.store = state.store ∧ last.anchor = state.anchor := by
  have obeys : (self.reReplicate ref bytes shard).Obeys (fun _ => ReadOnly) [] _ :=
    self.reReplicate_obeys (fun _ _ _ _ => trivial) ref bytes shard []
  rcases (readOnly_run obeys env shardMap state).1 with ⟨sameStore, sameAnchor⟩
  exact ⟨_, Prod.ext (obeys.run (world env shardMap) state) rfl, sameStore, sameAnchor⟩

theorem rewrite_run (env : Environment) (self : RepairShards) (ns : NamespaceId) (blobId : BlobId)
    (bad : List UInt16) {word : List Bytes} {recorded : List Shard}
    (symbols : ∀ shard ∈ recorded, ∃ bytes, word[shard.index.toNat]? = some bytes)
    (state : World ShardMap) :
    ∃ repaired last,
      (self.rewrite ns blobId bad word recorded).run (world env shardMap) state =
          (.ok repaired, last) ∧
        last.store = state.store ∧
        (∀ index, last.anchor ⟨ns, blobId, index⟩ = state.anchor ⟨ns, blobId, index⟩ ∨
          last.anchor ⟨ns, blobId, index⟩ = word[index.toNat]?) ∧
        ∀ shard ∈ recorded, shard.index ∈ bad →
          last.anchor ⟨ns, blobId, shard.index⟩ = word[shard.index.toNat]? := by
  induction recorded generalizing state with
  | nil => exact ⟨0, state, rfl, rfl, fun _ => Or.inl rfl, by simp⟩
  | cons shard recorded ih =>
      have later := ih fun other mem => symbols other (List.mem_cons_of_mem _ mem)
      rw [rewrite]
      by_cases isBad : shard.index ∈ bad
      · rcases symbols shard List.mem_cons_self with ⟨bytes, symbol⟩
        rw [if_neg (not_not.mpr isBad), symbol]
        let ref : ShardRef := ⟨ns, blobId, shard.index⟩
        have written : (VaultMesh.putShard ref bytes).run (world env shardMap) state =
            (.ok (), state.after shardMap (.putShard ref bytes)) := rfl
        rcases reReplicate_run env self ref bytes shard
          (state.after shardMap (.putShard ref bytes)) with
          ⟨middle, replicated, sameStore, sameAnchor⟩
        rcases later middle with ⟨repaired, last, rewritten, lastStore, kept, fixed⟩
        have here : middle.anchor ref = word[shard.index.toNat]? := by
          rw [sameAnchor, symbol]
          exact Function.update_self ..
        refine ⟨repaired + 1, last, ?_, ?_, ?_, ?_⟩
        · apply (Program.run_bind_of_ok written _).trans
          apply (Program.run_bind_of_ok replicated _).trans
          exact Program.run_bind_of_ok rewritten _
        · rw [lastStore, sameStore]
          rfl
        · intro index
          rcases kept index with same | symbolThere
          · by_cases hitHere : index = shard.index
            · subst hitHere
              exact Or.inr (same.trans here)
            · left
              rw [same, sameAnchor]
              apply Function.update_of_ne
              intro sameRef
              exact hitHere (congrArg ShardRef.index sameRef)
          · exact Or.inr symbolThere
        · intro other mem otherBad
          rcases List.mem_cons.mp mem with rfl | inRest
          · rcases kept other.index with same | symbolThere
            · exact same.trans here
            · exact symbolThere
          · exact fixed other inRest otherBad
      · rw [if_pos isBad]
        rcases later state with ⟨repaired, last, rewritten, lastStore, kept, fixed⟩
        refine ⟨repaired, last, rewritten, lastStore, kept, ?_⟩
        intro other mem otherBad
        rcases List.mem_cons.mp mem with rfl | inRest
        · exact absurd otherBad isBad
        · exact fixed other inRest otherBad

theorem length_badIndices (sha256Hex : Bytes → String) (shards : ShardMap) (ns : NamespaceId)
    (blobId : BlobId) (recorded : List Shard) :
    (badIndices sha256Hex shards ns blobId recorded).length +
      filled (recorded.map (validCopy sha256Hex shards ns blobId)) = recorded.length := by
  induction recorded with
  | nil => rfl
  | cons shard recorded ih =>
      cases copy : validCopy sha256Hex shards ns blobId shard with
      | none =>
          simp only [badIndices, List.length_map, List.filter_cons, copy, Option.isNone_none,
            if_true, List.length_cons, List.map_cons, filled_cons_none] at ih ⊢
          omega
      | some bytes =>
          simp only [badIndices, List.length_map, List.filter_cons, copy, Option.isNone_some,
            Bool.false_eq_true, if_false, List.length_cons, List.map_cons, filled_cons_some] at ih ⊢
          omega

theorem validCopy_eq_some {sha256Hex : Bytes → String} {shards : ShardMap} {shard : Shard}
    {bytes : Bytes} (copy : validCopy sha256Hex shards ns blobId shard = some bytes) :
    shards ⟨ns, blobId, shard.index⟩ = some bytes ∧ sha256Hex bytes = shard.sha256 := by
  simpa [validCopy, Option.filter_eq_some_iff] using copy

end RepairShards

/-! ## One pass -/

/-- The calls of a pass which writes back symbols of the word. -/
def Mends (word : List Bytes) : PortCall → Prop
  | .putShard ref bytes => word[ref.index.toNat]? = some bytes
  | request => ReadOnly request

/-- Writing back symbols of the word keeps what was kept. -/
theorem ShardMap.Keeps.after {shards : ShardMap} {hit : Finset UInt16} {request : PortCall}
    (keeps : shards.Keeps ns blobId word hit) (mends : Mends word request) :
    (shardMap.after shards request).Keeps ns blobId word hit := by
  cases request with
  | putShard ref bytes =>
      intro index outside inside
      by_cases here : ref = ⟨ns, blobId, index⟩
      · subst here
        exact (Function.update_self ..).trans mends.symm
      · exact (Function.update_of_ne (Ne.symm here) ..).trans (keeps index outside inside)
  | deleteBlob ns blobId => exact mends.elim
  | _ => exact keeps

theorem rewrite_mends (self : RepairShards) (ns : NamespaceId) (blobId : BlobId)
    (bad : List UInt16) (word : List Bytes) (recorded : List Shard) (past : List PortExchange) :
    (self.rewrite ns blobId bad word recorded).Obeys (fun _ => Mends word) past
      fun _ _ => True := by
  induction recorded generalizing past with
  | nil => exact trivial
  | cons shard recorded ih =>
      rw [RepairShards.rewrite]
      split
      · exact ih past
      · split
        · exact trivial
        · next bytes symbol =>
            refine Program.Obeys.call_bind symbol (fun _ _ _ => trivial) ?_
            intro _ _ _
            refine (self.reReplicate_obeys (fun _ _ _ _ => trivial) _ _ _ _).bind
              (fun _ _ _ => trivial) fun _ _ _ => ?_
            exact (ih _).bind (fun _ _ _ => trivial) fun _ _ _ => trivial

/-- A rewrite which succeeds counts the shards listed as bad. -/
theorem rewrite_counts (self : RepairShards) (ns : NamespaceId) (blobId : BlobId)
    (bad : List UInt16) (word : List Bytes) (recorded : List Shard) (past : List PortExchange) :
    (self.rewrite ns blobId bad word recorded).Obeys (fun _ _ => True) past fun _ result =>
      ∀ repaired, result = .ok repaired →
        repaired = recorded.countP fun shard => decide (shard.index ∈ bad) := by
  induction recorded generalizing past with
  | nil =>
      intro repaired ended
      exact (Except.ok.inj ended).symm
  | cons shard recorded ih =>
      rw [RepairShards.rewrite]
      by_cases isBad : shard.index ∈ bad
      · rw [if_neg (not_not.mpr isBad)]
        split
        · rintro _ ⟨⟩
        · refine Program.Obeys.call_bind trivial (by rintro _ _ _ _ ⟨⟩) ?_
          intro _ _ _
          refine (self.reReplicate_obeys (fun _ _ _ _ => trivial) _ _ _ _).bind
            (by rintro _ _ ⟨⟩) fun _ _ _ => ?_
          refine (ih _).bind (by rintro _ _ _ _ ⟨⟩) ?_
          intro _ repaired counted total ended
          rw [List.countP_cons_of_pos (by simp [isBad]), ← counted repaired rfl]
          exact (Except.ok.inj ended).symm
      · rw [if_pos isBad, List.countP_cons_of_neg (by simp [isBad])]
        exact ih past

section Pass

variable {node : Node} {manifest : Manifest} {ciphertext : Bytes} {hit : Finset UInt16}
  {state : World ShardMap}

theorem Node.Holds.few (holds : node.Holds manifest ciphertext word) : word.length ≤ 65536 := by
  have bound := manifest.erasure.n.toNat_lt
  have length := holds.length_word
  omega

/-- Outside the shards hit, the anchor has valid copies. -/
theorem Node.Holds.spared (holds : node.Holds manifest ciphertext word)
    (keeps : state.anchor.Keeps ns blobId word hit) :
    AtLeast (manifest.erasure.n.toNat - hit.card) (fun shard => ∃ bytes,
      state.anchor ⟨ns, blobId, shard.index⟩ = some bytes ∧
        node.sha256Hex bytes = shard.sha256) manifest.shards := by
  have records := holds.encodes.records
  have spared := atLeast_of_nodup (records.nodup holds.few) hit
  rw [holds.length_shards] at spared
  refine spared.imp ?_
  intro shard present outside
  rcases (records.mem holds.few present).2 with ⟨bytes, symbol, hash⟩
  refine ⟨bytes, ?_, hash.symm⟩
  rw [keeps shard.index outside (List.getElem?_eq_some_iff.mp symbol).1, symbol]

theorem Node.Holds.enough (holds : node.Holds manifest ciphertext word)
    (keeps : state.anchor.Keeps ns blobId word hit)
    (bounded : hit.card ≤ manifest.erasure.n.toNat - manifest.erasure.k.toNat) :
    AtLeast manifest.erasure.k.toNat (fun shard => ∃ bytes,
      state.anchor ⟨ns, blobId, shard.index⟩ = some bytes ∧
        node.sha256Hex bytes = shard.sha256) manifest.shards := by
  have valid := holds.valid.2
  apply (holds.spared keeps).of_le
  omega

def readSlots (node : Node) (manifest : Manifest) (ns : NamespaceId) (blobId : BlobId)
    (shards : ShardMap) : List (Option Bytes) :=
  manifest.shards.map (RepairShards.validCopy node.sha256Hex shards ns blobId)

theorem masks_readSlots (collisionFree : CollisionFree node.sha256Hex)
    (holds : node.Holds manifest ciphertext word) (shards : ShardMap) :
    Masks (readSlots node manifest ns blobId shards) word := by
  apply holds.encodes.records.masks collisionFree
  rw [readSlots, List.forall₂_map_right_iff, List.forall₂_same]
  intro shard _ bytes copy
  exact (RepairShards.validCopy_eq_some copy).2

theorem enough_readSlots (holds : node.Holds manifest ciphertext word)
    (keeps : state.anchor.Keeps ns blobId word hit)
    (bounded : hit.card ≤ manifest.erasure.n.toNat - manifest.erasure.k.toNat) :
    manifest.erasure.k.toNat ≤ filled (readSlots node manifest ns blobId state.anchor) := by
  have related : List.Forall₂
      (fun shard slot => slot = RepairShards.validCopy node.sha256Hex state.anchor ns blobId shard)
      manifest.shards (readSlots node manifest ns blobId state.anchor) := by
    rw [readSlots, List.forall₂_map_right_iff, List.forall₂_same]
    exact fun _ _ => rfl
  apply le_filled_of_atLeast related _ (holds.enough keeps bounded)
  rintro shard missing ⟨bytes, copy, hash⟩
  simp [RepairShards.validCopy, copy, hash, Option.filter] at missing

theorem keeps_all (collisionFree : CollisionFree node.sha256Hex)
    (holds : node.Holds manifest ciphertext word) {before after : ShardMap}
    (kept : ∀ index, after ⟨ns, blobId, index⟩ = before ⟨ns, blobId, index⟩ ∨
      after ⟨ns, blobId, index⟩ = word[index.toNat]?)
    (fixed : ∀ shard ∈ manifest.shards,
      shard.index ∈ RepairShards.badIndices node.sha256Hex before ns blobId manifest.shards →
        after ⟨ns, blobId, shard.index⟩ = word[shard.index.toNat]?) :
    after.Keeps ns blobId word ∅ := by
  have records := holds.encodes.records
  intro index _ inside
  have bound : index.toNat < manifest.shards.length := by
    rw [records.length_eq]
    exact inside
  have listed : manifest.shards[index.toNat]? = some manifest.shards[index.toNat] := by
    simp [bound]
  rcases records.getElem? listed with ⟨sameIndex, bytes, symbol, hash⟩
  have sameIndex : (manifest.shards[index.toNat]).index = index := by
    simpa using sameIndex
  have present : manifest.shards[index.toNat] ∈ manifest.shards := List.getElem_mem _
  generalize manifest.shards[index.toNat] = shard at sameIndex hash present
  subst sameIndex
  rcases kept shard.index with same | done
  · cases copy : RepairShards.validCopy node.sha256Hex before ns blobId shard with
    | some valid =>
        rcases RepairShards.validCopy_eq_some copy with ⟨stored, validHash⟩
        rw [same, stored, symbol, collisionFree (validHash.trans hash)]
    | none =>
        apply fixed shard present
        simp only [RepairShards.badIndices, List.mem_map, List.mem_filter]
        exact ⟨shard, ⟨present, by simp [copy]⟩, rfl⟩
  · exact done

/-- From enough slots of the word, rebuilding comes down to rewriting the bad shards. -/
theorem rebuild_eq (holds : node.Holds manifest ciphertext word) (transport : Bool)
    {slots : List (Option Bytes)} (masks : Masks slots word)
    (enough : manifest.erasure.k.toNat ≤ filled slots) (bad : List UInt16) :
    (node.repair transport).rebuild ns blobId manifest slots bad =
      (node.repair transport).rewrite ns blobId bad word manifest.shards >>= fun repaired =>
        pure ⟨blobId, manifest.shards.length,
          manifest.shards.length - bad.length + repaired, repaired, 0, false⟩ := by
  rw [RepairShards.rebuild]
  simp only [Manifest.isReconstructable, enough, decide_true, if_true]
  change (Program.done ((reedSolomonCoder node.library).decode _ _ _) >>= _) = _
  rw [holds.decode masks enough, Program.done_ok_bind]
  change (Program.done ((reedSolomonCoder node.library).encode _ _) >>= _) = _
  rw [holds.encodes.encoded, Program.done_ok_bind]

/-- Rebuilding from enough slots succeeds and leaves the whole word on the anchor. -/
theorem rebuild_run (env : Environment) (state : World ShardMap)
    (collisionFree : CollisionFree node.sha256Hex)
    (holds : node.Holds manifest ciphertext word) (transport : Bool)
    {slots : List (Option Bytes)} (masks : Masks slots word)
    (enough : manifest.erasure.k.toNat ≤ filled slots) {bad : List UInt16}
    (classified : RepairShards.badIndices node.sha256Hex state.anchor ns blobId manifest.shards =
      bad) :
    ∃ report last,
      ((node.repair transport).rebuild ns blobId manifest slots bad).run (world env shardMap)
          state = (.ok report, last) ∧
        report.unrepairable = false ∧ report.stillBad = 0 ∧
        report.repaired = manifest.shards.countP (fun shard => decide (shard.index ∈ bad)) ∧
        last.store = state.store ∧ last.anchor.Keeps ns blobId word ∅ ∧
        ∀ hit, state.anchor.Keeps ns blobId word hit →
          ∀ moment ∈ ((node.repair transport).rebuild ns blobId manifest slots bad).visits
              (world env shardMap) state,
            moment.store = state.store ∧ moment.anchor.Keeps ns blobId word hit := by
  have symbols : ∀ shard ∈ manifest.shards, ∃ bytes, word[shard.index.toNat]? = some bytes := by
    intro shard present
    rcases (holds.encodes.records.mem holds.few present).2 with ⟨bytes, symbol, -⟩
    exact ⟨bytes, symbol⟩
  rcases RepairShards.rewrite_run env (node.repair transport) ns blobId bad symbols state with
    ⟨repaired, last, rewritten, sameStore, kept, fixed⟩
  have count : repaired = manifest.shards.countP (fun shard => decide (shard.index ∈ bad)) := by
    have counted := (rewrite_counts (node.repair transport) ns blobId bad word manifest.shards
      []).run (world env shardMap) state
    rw [rewritten] at counted
    exact counted repaired rfl
  rw [← classified] at fixed
  rw [rebuild_eq holds transport masks enough]
  refine ⟨_, last, Program.run_bind_of_ok rewritten _, rfl, rfl, count, sameStore,
    keeps_all collisionFree holds kept fixed, ?_⟩
  rw [Program.visits_bind_of_ok rewritten]
  intro hit keeps moment visited
  have throughout := (rewrite_mends (node.repair transport) ns blobId bad word manifest.shards
    []).run_invariant
    (fun _ moment => moment.store = state.store ∧ moment.anchor.Keeps ns blobId word hit)
    (world env shardMap) state ⟨rfl, keeps⟩ (by
      rintro past request moment mends ⟨momentStore, momentKeeps⟩
      refine ⟨?_, momentKeeps.after mends⟩
      rw [← momentStore]
      cases request <;> first | rfl | exact mends.elim)
  rcases throughout.2 moment (by simpa using visited) with ⟨_, good⟩
  exact good

theorem keeps_of_noneBad (collisionFree : CollisionFree node.sha256Hex)
    (holds : node.Holds manifest ciphertext word)
    (noneBad : RepairShards.badIndices node.sha256Hex state.anchor ns blobId manifest.shards =
      []) : state.anchor.Keeps ns blobId word ∅ := by
  apply keeps_all collisionFree holds (fun index => Or.inl (rfl : _ = state.anchor _))
  intro shard _ isBad
  rw [noneBad] at isBad
  cases isBad

namespace RepairShards

/-- What a pass does once it has read the anchor. -/
def settle (self : RepairShards) (ns : NamespaceId) (blobId : BlobId) (manifest : Manifest)
    (collected : List (Option Bytes)) (bad : List UInt16) : UseCase RepairReport :=
  let checked := manifest.shards.length
  let healthy := checked - bad.length
  if bad = [] then
    pure ⟨blobId, checked, healthy, 0, 0, false⟩
  else if manifest.isReconstructable healthy then
    self.rebuild ns blobId manifest collected bad
  else do
    let borrowed ← self.backfillFromPeers ns blobId manifest collected bad
    self.rebuild ns blobId manifest borrowed bad

/-- A pass over a recorded blob reads the anchor and settles what it read. -/
theorem execute_run (transport : Bool)
    (found : state.store.getManifest ns blobId = some manifest) :
    ((node.repair transport).execute ns blobId).run (world env shardMap) state =
      ((node.repair transport).settle ns blobId manifest
        (readSlots node manifest ns blobId state.anchor)
        (badIndices node.sha256Hex state.anchor ns blobId manifest.shards)).run
          (world env shardMap)
          { state with tick := state.tick + 1 + manifest.shards.length } := by
  have manifestRead : (VaultMesh.getManifest ns blobId).run (world env shardMap) state =
      (.ok (some manifest), { state with tick := state.tick + 1 }) := by
    rw [← found]
    rfl
  rw [execute, Program.run_bind_of_ok manifestRead, okOr_some, pure_bind,
    Program.run_bind_of_ok (classify_run env (node.repair transport) ns blobId manifest.shards _)]
  rfl

theorem healthy_eq_filled (node : Node) (manifest : Manifest) (ns : NamespaceId) (blobId : BlobId)
    (state : World ShardMap) :
    manifest.shards.length -
        (badIndices node.sha256Hex state.anchor ns blobId manifest.shards).length =
      filled (readSlots node manifest ns blobId state.anchor) := by
  have split := length_badIndices node.sha256Hex state.anchor ns blobId manifest.shards
  simp only [readSlots]
  omega

/-- The moments of a pass before it settles are those of its reads. -/
theorem execute_visits (transport : Bool)
    (found : state.store.getManifest ns blobId = some manifest) {moment : World ShardMap}
    (visited : moment ∈ ((node.repair transport).execute ns blobId).visits (world env shardMap)
      state) :
    (moment.store = state.store ∧ moment.anchor = state.anchor) ∨
      moment ∈ ((node.repair transport).settle ns blobId manifest
        (readSlots node manifest ns blobId state.anchor)
        (badIndices node.sha256Hex state.anchor ns blobId manifest.shards)).visits
          (world env shardMap)
          { state with tick := state.tick + 1 + manifest.shards.length } := by
  let begun : World ShardMap := { state with tick := state.tick + 1 }
  have manifestRead : (VaultMesh.getManifest ns blobId).run (world env shardMap) state =
      (.ok (some manifest), begun) := by
    rw [← found]
    rfl
  have firstVisit : (VaultMesh.getManifest ns blobId).visits (world env shardMap) state =
      [state] := rfl
  rw [execute, Program.visits_bind_of_ok manifestRead, okOr_some, pure_bind, firstVisit,
    Program.visits_bind_of_ok (classify_run env (node.repair transport) ns blobId manifest.shards
      begun), List.mem_append, List.mem_append, List.mem_singleton] at visited
  rcases visited with rfl | reading | settling
  · exact Or.inl ⟨rfl, rfl⟩
  · exact Or.inl ((readOnly_run ((node.repair transport).classify_obeys permits_readOnly ns blobId
      manifest.shards []) env shardMap begun).2 moment reading)
  · exact Or.inr settling

end RepairShards

/-- A pass over a blob of which not too many shards were hit. -/
theorem repair_run (env : Environment) (collisionFree : CollisionFree node.sha256Hex)
    (holds : node.Holds manifest ciphertext word) (transport : Bool)
    (found : state.store.getManifest ns blobId = some manifest)
    (keeps : state.anchor.Keeps ns blobId word hit)
    (bounded : hit.card ≤ manifest.erasure.n.toNat - manifest.erasure.k.toNat) :
    ∃ report last,
      ((node.repair transport).execute ns blobId).run (world env shardMap) state =
          (.ok report, last) ∧
        report.unrepairable = false ∧ report.stillBad = 0 ∧ last.store = state.store ∧
        last.anchor.Keeps ns blobId word ∅ ∧
        ∀ moment ∈ ((node.repair transport).execute ns blobId).visits (world env shardMap) state,
          moment.store = state.store ∧ moment.anchor.Keeps ns blobId word hit := by
  let classified : World ShardMap := { state with tick := state.tick + 1 + manifest.shards.length }
  let settling := (node.repair transport).settle ns blobId manifest
    (readSlots node manifest ns blobId state.anchor)
    (RepairShards.badIndices node.sha256Hex state.anchor ns blobId manifest.shards)
  have enough := enough_readSlots holds keeps bounded
  have settled : ∃ report last, settling.run (world env shardMap) classified = (.ok report, last) ∧
      report.unrepairable = false ∧ report.stillBad = 0 ∧ last.store = state.store ∧
      last.anchor.Keeps ns blobId word ∅ ∧
      ∀ moment ∈ settling.visits (world env shardMap) classified,
        moment.store = state.store ∧ moment.anchor.Keeps ns blobId word hit := by
    simp only [settling, RepairShards.settle]
    by_cases noneBad : RepairShards.badIndices node.sha256Hex state.anchor ns blobId
        manifest.shards = []
    · rw [if_pos noneBad]
      exact ⟨_, classified, rfl, rfl, rfl, rfl, keeps_of_noneBad collisionFree holds noneBad,
        by simp⟩
    · rw [if_neg noneBad, RepairShards.healthy_eq_filled,
        if_pos (by simpa [Manifest.isReconstructable] using enough)]
      rcases rebuild_run env classified collisionFree holds transport
        (masks_readSlots collisionFree holds state.anchor) enough rfl with
        ⟨report, last, ran, repairable, fixed, -, sameStore, whole, visits⟩
      exact ⟨report, last, ran, repairable, fixed, sameStore, whole, visits hit keeps⟩
  rcases settled with ⟨report, last, ran, repairable, fixed, sameStore, whole, visits⟩
  refine ⟨report, last, ?_, repairable, fixed, sameStore, whole, ?_⟩
  · rw [RepairShards.execute_run transport found]
    exact ran
  · intro moment visited
    rcases RepairShards.execute_visits transport found visited with
      ⟨momentStore, momentAnchor⟩ | visited
    · rw [momentAnchor]
      exact ⟨momentStore, keeps⟩
    · exact visits moment visited

/-- An authorized restore ends as the slots decide which the anchor and the peers filled. -/
theorem restore_run (env : Environment) (collisionFree : CollisionFree node.sha256Hex)
    (encodes : manifest.Encodes (reedSolomonCoder node.library) node.sha256Hex ciphertext word)
    (found : state.store.getManifest ns blobId = some manifest) (transport : Bool)
    {token : CapabilityToken} {app : AppId}
    (authorized : ((authorize ns token .get).run (world env shardMap) state).1 = .ok app) :
    ∃ slots moments,
      (((node.get transport).restore ns token blobId).run (world env shardMap) state).1 =
          (node.get transport).decodeCollected manifest slots ∧
        Masks slots word ∧
        (∀ moment ∈ moments, moment.anchor = state.anchor) ∧
        List.Forall₂ (GetBackup.SlotOutcome (world env shardMap) (node.get transport) ns blobId
          moments) manifest.shards slots := by
  rcases authorizeRan : (authorize ns token .get).run (world env shardMap) state with
    ⟨result, checked⟩
  rcases authorize_run_unchanged authorizeRan with ⟨sameStore, sameAnchor⟩
  simp only [authorizeRan] at authorized
  subst authorized
  have foundNow : ((world env shardMap).answer checked (.getManifest ns blobId)).1 =
      .ok (some manifest) := by
    simp only [world_answer_fst, World.reply, sameStore, found]
  rcases Node.reconstruct_run (world env shardMap) collisionFree encodes transport foundNow
    with ⟨slots, last, ran, masks, outcomes⟩
  refine ⟨slots, _, ?_, masks, ?_, outcomes⟩
  · rw [GetBackup.restore, Program.run_bind_of_ok authorizeRan, ran]
  · intro moment visited
    rw [← sameAnchor]
    exact ((readOnly_run ((node.get transport).reconstruct_obeys permits_readOnly ns blobId [])
      env shardMap checked).2 moment visited).2

/-- The slots of shards which the anchor holds are filled. -/
theorem le_filled_of_anchor {transport : Bool} {recorded : List Shard} {count : ℕ}
    {slots : List (Option Bytes)} {moments : List (World ShardMap)}
    (same : ∀ moment ∈ moments, moment.anchor = state.anchor)
    (outcomes : List.Forall₂ (GetBackup.SlotOutcome (world env shardMap) (node.get transport) ns
      blobId moments) recorded slots)
    (held : AtLeast count (fun shard => ∃ bytes,
      state.anchor ⟨ns, blobId, shard.index⟩ = some bytes ∧
        node.sha256Hex bytes = shard.sha256) recorded) : count ≤ filled slots := by
  apply le_filled_of_atLeast outcomes _ held
  rintro shard outcome ⟨bytes, copy, hash⟩
  rcases outcome.complete rfl .anchor trivial with ⟨moment, visited, missing⟩
  apply missing
  refine ⟨bytes, ?_, hash⟩
  simp only [copyAt, world_answer_fst, World.reply, same moment visited, shardMap, ShardMap.read,
    copy]

/-- As long as not too many shards are hit, a restore returns the ciphertext. -/
theorem restore_of_keeps (env : Environment) (collisionFree : CollisionFree node.sha256Hex)
    (holds : node.Holds manifest ciphertext word)
    (found : state.store.getManifest ns blobId = some manifest)
    (keeps : state.anchor.Keeps ns blobId word hit)
    (bounded : hit.card ≤ manifest.erasure.n.toNat - manifest.erasure.k.toNat) (transport : Bool)
    (token : CapabilityToken) {app : AppId}
    (authorized : ((authorize ns token .get).run (world env shardMap) state).1 = .ok app) :
    ∃ outcome,
      (((node.get transport).restore ns token blobId).run (world env shardMap) state).1 =
          .ok outcome ∧
        outcome.ciphertext = ciphertext := by
  rcases restore_run env collisionFree holds.encodes found transport authorized with
    ⟨slots, moments, ran, masks, same, outcomes⟩
  rcases Node.decodeCollected_ok_iff holds transport masks with ⟨succeeds, original⟩
  have enough := le_filled_of_anchor same outcomes (holds.enough keeps bounded)
  rcases succeeds.mpr enough with ⟨outcome, decoded⟩
  rw [ran]
  exact ⟨outcome, decoded, original outcome decoded⟩

end Pass

/-! ## Rounds of loss and repair -/

/--
What happens between two passes: any changes to the world which leave the blob's
manifest and, outside `hit`, the blob's shards alone.
-/
structure Interval (ns : NamespaceId) (blobId : BlobId) where
  hit : Finset UInt16
  changes : List (World ShardMap → World ShardMap)
  manifest : ∀ change ∈ changes, ∀ state : World ShardMap,
    (change state).store.getManifest ns blobId = state.store.getManifest ns blobId
  spared : ∀ change ∈ changes, ∀ (state : World ShardMap) (index : UInt16), index ∉ hit →
    (change state).anchor ⟨ns, blobId, index⟩ = state.anchor ⟨ns, blobId, index⟩

structure Round (ns : NamespaceId) (blobId : BlobId) where
  interval : Interval ns blobId
  transport : Bool

def evolve (changes : List (World ShardMap → World ShardMap)) (state : World ShardMap) :
    List (World ShardMap) × World ShardMap :=
  match changes with
  | [] => ([], state)
  | change :: later => (change state :: (evolve later (change state)).1,
      (evolve later (change state)).2)

def passes (node : Node) (env : Environment) :
    List (Round ns blobId) → World ShardMap → List (Except Failure RepairReport × World ShardMap)
  | [], _ => []
  | round :: rounds, state =>
      let pass := ((node.repair round.transport).execute ns blobId).run (world env shardMap)
        (evolve round.interval.changes state).2
      pass :: passes node env rounds pass.2

/-- Every moment of the rounds: between the changes, within the passes and at the end. -/
def moments (node : Node) (env : Environment) :
    List (Round ns blobId) → World ShardMap → List (World ShardMap)
  | [], state => [state]
  | round :: rounds, state =>
      let damaged := (evolve round.interval.changes state).2
      state :: ((evolve round.interval.changes state).1 ++
        (((node.repair round.transport).execute ns blobId).visits (world env shardMap) damaged ++
          moments node env rounds
            (((node.repair round.transport).execute ns blobId).run (world env shardMap) damaged).2))

section Rounds

variable {node : Node} {manifest : Manifest} {ciphertext : Bytes} {hit : Finset UInt16}

/-- The blob is recorded, and outside `hit` its word is on the anchor. -/
structure Safe (manifest : Manifest) (ns : NamespaceId) (blobId : BlobId) (word : List Bytes)
    (hit : Finset UInt16) (state : World ShardMap) : Prop where
  recorded : state.store.getManifest ns blobId = some manifest
  keeps : state.anchor.Keeps ns blobId word hit

theorem Safe.mono {state : World ShardMap} {fewer : Finset UInt16}
    (safe : Safe manifest ns blobId word fewer state) (subset : fewer ⊆ hit) :
    Safe manifest ns blobId word hit state :=
  ⟨safe.recorded, fun index outside inside =>
    safe.keeps index (fun mem => outside (subset mem)) inside⟩

theorem Safe.evolve {changes : List (World ShardMap → World ShardMap)} {state : World ShardMap}
    (safe : Safe manifest ns blobId word hit state)
    (recorded : ∀ change ∈ changes, ∀ state : World ShardMap,
      (change state).store.getManifest ns blobId = state.store.getManifest ns blobId)
    (spared : ∀ change ∈ changes, ∀ (state : World ShardMap) (index : UInt16), index ∉ hit →
      (change state).anchor ⟨ns, blobId, index⟩ = state.anchor ⟨ns, blobId, index⟩) :
    (∀ moment ∈ (VaultMesh.evolve changes state).1, Safe manifest ns blobId word hit moment) ∧
      Safe manifest ns blobId word hit (VaultMesh.evolve changes state).2 := by
  induction changes generalizing state with
  | nil => exact ⟨by simp [VaultMesh.evolve], safe⟩
  | cons change changes ih =>
      have next : Safe manifest ns blobId word hit (change state) := by
        constructor
        · rw [recorded change List.mem_cons_self state]
          exact safe.recorded
        · intro index outside inside
          rw [spared change List.mem_cons_self state index outside]
          exact safe.keeps index outside inside
      rcases ih next (fun other mem => recorded other (List.mem_cons_of_mem _ mem))
        (fun other mem => spared other (List.mem_cons_of_mem _ mem)) with ⟨onTheWay, atEnd⟩
      refine ⟨?_, atEnd⟩
      intro moment mem
      rcases List.mem_cons.mp mem with rfl | later
      · exact next
      · exact onTheWay moment later

/-- The invariant of all rounds: the passes succeed, and no moment is unsafe. -/
theorem safe_rounds (env : Environment) (collisionFree : CollisionFree node.sha256Hex)
    (holds : node.Holds manifest ciphertext word) (rounds : List (Round ns blobId))
    {state : World ShardMap} (safe : Safe manifest ns blobId word ∅ state)
    (bounded : ∀ round ∈ rounds,
      round.interval.hit.card ≤ manifest.erasure.n.toNat - manifest.erasure.k.toNat) :
    (∀ pass ∈ passes node env rounds state, ∃ report, pass.1 = .ok report ∧
      report.unrepairable = false ∧ report.stillBad = 0 ∧
      Safe manifest ns blobId word ∅ pass.2) ∧
    ∀ moment ∈ moments node env rounds state, ∃ hit : Finset UInt16,
      hit.card ≤ manifest.erasure.n.toNat - manifest.erasure.k.toNat ∧
        Safe manifest ns blobId word hit moment := by
  induction rounds generalizing state with
  | nil =>
      refine ⟨by simp [passes], ?_⟩
      intro moment mem
      rcases List.mem_singleton.mp mem with rfl
      exact ⟨∅, by simp, safe⟩
  | cons round rounds ih =>
      have small := bounded round List.mem_cons_self
      rcases (safe.mono (Finset.empty_subset round.interval.hit)).evolve round.interval.manifest
        round.interval.spared with ⟨between, damaged⟩
      rcases repair_run env collisionFree holds round.transport damaged.recorded damaged.keeps small
        with ⟨report, last, ran, repairable, noneBad, sameStore, whole, within⟩
      have mended : Safe manifest ns blobId word ∅ last := by
        refine ⟨?_, whole⟩
        rw [sameStore]
        exact damaged.recorded
      rcases ih mended (fun other mem => bounded other (List.mem_cons_of_mem _ mem)) with
        ⟨laterPasses, laterMoments⟩
      constructor
      · intro pass mem
        simp only [passes, ran, List.mem_cons] at mem
        rcases mem with rfl | later
        · exact ⟨report, rfl, repairable, noneBad, mended⟩
        · exact laterPasses pass later
      · intro moment mem
        simp only [moments, ran, List.mem_cons, List.mem_append] at mem
        rcases mem with rfl | inInterval | inPass | later
        · exact ⟨∅, by simp, safe⟩
        · exact ⟨round.interval.hit, small, between moment inInterval⟩
        · rcases within moment inPass with ⟨momentStore, momentKeeps⟩
          refine ⟨round.interval.hit, small, ?_, momentKeeps⟩
          rw [momentStore]
          exact damaged.recorded
        · exact laterMoments moment later

/--
After any put, through any number of rounds which each hit at most `n - k` of the
blob's shards, every pass repairs the blob completely, and a restore at any moment
returns what was put. Nothing depends on what the peers answer.
-/
theorem bounded_loss_is_repaired (env : Environment) (collisionFree : CollisionFree node.sha256Hex)
    {mesh : Mesh} {token : CapabilityToken} {ciphertext : Slice} {first stored : World ShardMap}
    (supported : ∀ app contract, first.store.getContract app = some contract →
      node.Supports contract)
    (put : ((node.put mesh).execute ns token ciphertext).run (world env shardMap) first =
      (.ok blobId, stored)) :
    ∃ manifest, stored.store.getManifest ns blobId = some manifest ∧
      ∀ rounds : List (Round ns blobId),
        (∀ round ∈ rounds,
          round.interval.hit.card ≤ manifest.erasure.n.toNat - manifest.erasure.k.toNat) →
        (∀ pass ∈ passes node env rounds stored, ∃ report, pass.1 = .ok report ∧
          report.unrepairable = false ∧ report.stillBad = 0 ∧
          ∀ index : UInt16, index.toNat < manifest.erasure.n.toNat → ∃ bytes,
            stored.anchor ⟨ns, blobId, index⟩ = some bytes ∧
              pass.2.anchor ⟨ns, blobId, index⟩ = some bytes) ∧
        ∀ moment ∈ moments node env rounds stored, ∀ (transport : Bool)
          (reader : CapabilityToken) (app : AppId),
          ((authorize ns reader .get).run (world env shardMap) moment).1 = .ok app →
          ∃ outcome,
            (((node.get transport).restore ns reader blobId).run (world env shardMap) moment).1 =
                .ok outcome ∧
              outcome.ciphertext = ciphertext.bytes := by
  rcases PutBackup.execute_run supported put with ⟨manifest, word, recorded, holds, keeps⟩
  refine ⟨manifest, recorded, ?_⟩
  intro rounds bounded
  rcases safe_rounds env collisionFree holds rounds ⟨recorded, keeps⟩ bounded with
    ⟨everyPass, everyMoment⟩
  constructor
  · intro pass mem
    rcases everyPass pass mem with ⟨report, ended, repairable, noneBad, safe⟩
    refine ⟨report, ended, repairable, noneBad, ?_⟩
    intro index inside
    rw [← holds.length_word] at inside
    have symbol : word[index.toNat]? = some word[index.toNat] := by simp [inside]
    refine ⟨word[index.toNat], ?_, ?_⟩
    · rw [keeps index (Finset.notMem_empty _) inside, symbol]
    · rw [safe.keeps index (Finset.notMem_empty _) inside, symbol]
  · intro moment mem transport reader app authorized
    rcases everyMoment moment mem with ⟨hit, small, safe⟩
    exact restore_of_keeps env collisionFree holds safe.recorded safe.keeps small transport reader
      authorized

def storedRun : Except Failure BlobId × World ShardMap :=
  ((replicatingNode.put ⟨false, [], ⟨none, false⟩⟩).execute ⟨"ns-1"⟩ (sampleToken .put)
    (oneByte 7)).run (world sampleEnvironment shardMap)
    ⟨sampleStore ⟨10, 10⟩ ⟨1, 0⟩, fun _ => none, [], 0⟩

/-- One of its two shards is replaced before a pass. -/
def replacingRound : Round ⟨"ns-1"⟩ ⟨"blob-5"⟩ where
  interval :=
    { hit := {0}
      changes := [fun state =>
        { state with anchor := Function.update state.anchor ⟨⟨"ns-1"⟩, ⟨"blob-5"⟩, 0⟩ (some [9]) }]
      manifest := by
        intro change mem state
        rcases List.mem_singleton.mp mem with rfl
        rfl
      spared := by
        intro change mem state index outside
        rcases List.mem_singleton.mp mem with rfl
        apply Function.update_of_ne
        intro same
        exact outside (Finset.mem_singleton.mpr (congrArg ShardRef.index same)) }
  transport := true

theorem bounded_loss_is_repaired_replaced :
    storedRun.1 = .ok ⟨"blob-5"⟩ ∧
    ∀ pass ∈ passes replicatingNode sampleEnvironment [replacingRound] storedRun.2, ∃ report,
      pass.1 = .ok report ∧ report.unrepairable = false ∧ report.stillBad = 0 := by
  refine ⟨rfl, ?_⟩
  rcases bounded_loss_is_repaired sampleEnvironment collisionFree_sampleDigest
    (fun _ _ known => replicatingNode_supports known)
    (rfl : storedRun = (.ok ⟨"blob-5"⟩, storedRun.2)) with ⟨manifest, recorded, repaired⟩
  have isSample : storedRun.2.store.getManifest ⟨"ns-1"⟩ ⟨"blob-5"⟩ =
      some (sampleManifest [.anchor]) := rfl
  rcases Option.some.inj (recorded.symm.trans isSample) with rfl
  have small : ∀ round ∈ [replacingRound], round.interval.hit.card ≤ 2 - 1 := by
    intro round mem
    rcases List.mem_singleton.mp mem with rfl
    exact Nat.le_of_eq (Finset.card_singleton _)
  intro pass mem
  rcases (repaired [replacingRound] small).1 pass mem with ⟨report, ended, repairable, noneBad, -⟩
  exact ⟨report, ended, repairable, noneBad⟩

end Rounds

end VaultMesh
