import VaultMesh.Faults
import VaultMesh.RestoreAndRepair

/-!
# One repair pass, whatever fails

A pass reads the anchor, borrows from peers if it has to, and then rewrites the
bad shards one by one. What peers say is used only where its hash is right, so
the slots it decodes are symbols of the blob's word, whoever filled them. What it
writes are symbols of the word too, at the places it found bad. So a pass which
is cut short has mended some bad shards and touched nothing else, and a pass
which ends well has mended all of them.
-/

namespace VaultMesh

open Interaction Coding

/-- A call which fails is not answered as if the shard were missing. -/
def Faults.Honest (faults : Faults) : Prop :=
  ∀ ref, faults.call (.getShard ref) ≠ some .notFound

variable {node : Node} {manifest : Manifest} {ciphertext : Bytes} {word : List Bytes}
  {ns : NamespaceId} {blobId : BlobId}

/-! ## What peers can fill in -/

theorem fetchReplica_sound (sha256Hex : Bytes → String) (ref : ShardRef) (shard : Shard)
    (locations : List ShardLocation) (past : List PortExchange) :
    (fetchReplica sha256Hex ref shard locations).Obeys (fun _ => ReadOnly) past fun _ result =>
      ∃ slot, result = .ok slot ∧ ∀ bytes, slot = some bytes →
        sha256Hex bytes = shard.sha256 := by
  induction locations generalizing past with
  | nil => exact ⟨none, rfl, by simp⟩
  | cons location locations ih =>
      cases location with
      | anchor => exact ih past
      | peer peer =>
          refine Program.Obeys.call_bind trivial (by rintro _ _ ⟨⟩) ?_
          intro _ outcome _
          cases outcome with
          | error error => exact ih _
          | ok bytes =>
              dsimp only
              split
              · next hash =>
                  refine ⟨some bytes, rfl, ?_⟩
                  intro value same
                  rcases Option.some.inj same with rfl
                  exact hash
              · exact ih _

namespace RepairShards

/-- Borrowing never fails, and its slots stay symbols of the word. -/
theorem backfill_sound (self : RepairShards) (collisionFree : CollisionFree self.sha256Hex)
    (ns : NamespaceId) (blobId : BlobId) (k : ℕ) (bad : List UInt16) {recorded : List Shard}
    (symbols : ∀ shard ∈ recorded, ∃ bytes, word[shard.index.toNat]? = some bytes ∧
      shard.sha256 = self.sha256Hex bytes)
    {collected : List (Option Bytes)} (masks : Masks collected word) (available : ℕ)
    (past : List PortExchange) :
    (self.backfill ns blobId k bad recorded collected available).Obeys (fun _ => ReadOnly) past
      fun _ result => ∃ slots, result = .ok slots ∧ Masks slots word := by
  induction recorded generalizing collected available past with
  | nil => exact ⟨collected, rfl, masks⟩
  | cons shard recorded ih =>
      have later {slots : List (Option Bytes)} (masks : Masks slots word) :=
        ih (fun other listed => symbols other (List.mem_cons_of_mem _ listed)) masks
      rw [backfill]
      split
      · exact ⟨collected, rfl, masks⟩
      · split
        · exact later masks _ _
        · refine (fetchReplica_sound _ _ _ _ past).bind ?_ ?_
          · rintro _ _ ⟨_, impossible, _⟩
            cases impossible
          rintro suffix replica ⟨slot, same, sound⟩
          rcases Except.ok.inj same with rfl
          cases replica with
          | none => exact later masks _ _
          | some bytes =>
              rcases symbols shard List.mem_cons_self with ⟨symbol, there, hash⟩
              have original : bytes = symbol := collisionFree ((sound bytes rfl).trans hash)
              subst original
              have inside : shard.index.toNat < collected.length := by
                rw [masks.length_eq]
                exact (List.getElem?_eq_some_iff.mp there).1
              dsimp only
              rw [if_pos inside]
              exact later (masks.set there) _ _

theorem backfillFromPeers_sound (collisionFree : CollisionFree node.sha256Hex)
    (holds : node.Holds manifest ciphertext word) (transport : Bool) (ns : NamespaceId)
    (blobId : BlobId) {collected : List (Option Bytes)} (masks : Masks collected word)
    (bad : List UInt16) (past : List PortExchange) :
    ((node.repair transport).backfillFromPeers ns blobId manifest collected bad).Obeys
      (fun _ => ReadOnly) past fun _ result => ∃ slots, result = .ok slots ∧ Masks slots word := by
  unfold backfillFromPeers
  split
  · apply backfill_sound (node.repair transport) collisionFree ns blobId _ bad ?_ masks
    intro shard listed
    exact (holds.encodes.records.mem holds.few listed).2
  · exact ⟨collected, rfl, masks⟩

/-! ## What a pass writes -/

/-- A pass reads, or writes symbols of the word where it found bad shards. -/
def Mending (ns : NamespaceId) (blobId : BlobId) (bad : List UInt16) (word : List Bytes) :
    PortCall → Prop
  | .putShard ref bytes => ref.ns = ns ∧ ref.blobId = blobId ∧ ref.index ∈ bad ∧
      word[ref.index.toNat]? = some bytes
  | request => ReadOnly request

/-- The anchor refused to store a shard. -/
def Refused (past : List PortExchange) : Prop :=
  ∃ ref bytes error, (⟨.putShard ref bytes, .error error⟩ : PortExchange) ∈ past

theorem permits_mending (ns : NamespaceId) (blobId : BlobId) (bad : List UInt16)
    (word : List Bytes) : Permits fun _ => Mending ns blobId bad word := by
  intro past request reads
  cases request <;> first | exact trivial | exact reads.elim

/-- The bad shards among these were all written. -/
def Mended (ns : NamespaceId) (blobId : BlobId) (bad : List UInt16) (recorded : List Shard)
    (past : List PortExchange) : Prop :=
  ∀ shard ∈ recorded, shard.index ∈ bad → ∃ bytes,
    (⟨.putShard ⟨ns, blobId, shard.index⟩ bytes, .ok ()⟩ : PortExchange) ∈ past

theorem rewrite_mending (self : RepairShards) (bad : List UInt16) {recorded : List Shard}
    (symbols : ∀ shard ∈ recorded, ∃ bytes, word[shard.index.toNat]? = some bytes)
    (past : List PortExchange) :
    (self.rewrite ns blobId bad word recorded).Obeys (fun _ => Mending ns blobId bad word) past
      fun past' result => past ⊆ past' ∧ (∀ failure, result = .error failure → Refused past') ∧
        ∀ repaired, result = .ok repaired →
          repaired = recorded.countP (fun shard => decide (shard.index ∈ bad)) ∧
            Mended ns blobId bad recorded past' := by
  induction recorded generalizing past with
  | nil =>
      refine ⟨List.Subset.refl _, by simp, ?_⟩
      intro repaired ended
      exact ⟨(Except.ok.inj ended).symm, by simp [Mended]⟩
  | cons shard recorded ih =>
      have later := ih fun other listed => symbols other (List.mem_cons_of_mem _ listed)
      rw [rewrite]
      by_cases isBad : shard.index ∈ bad
      · rcases symbols shard List.mem_cons_self with ⟨bytes, symbol⟩
        rw [if_neg (not_not.mpr isBad), symbol]
        refine Program.Obeys.call_bind ⟨rfl, rfl, isBad, symbol⟩ ?_ ?_
        · intro answer failure failed
          refine ⟨List.subset_append_left _ _, ?_, by simp⟩
          intro _ _
          cases answer with
          | ok done => cases failed
          | error error => exact ⟨⟨ns, blobId, shard.index⟩, bytes, error, by simp⟩
        · intro answer value went
          rcases question_eq_ok went with rfl
          refine (self.reReplicate_obeys (fun _ _ _ _ => trivial) _ _ _ _).bind
            (by rintro _ _ ⟨⟩) ?_
          intro suffix _ _
          have before : past ⊆
              past ++ [⟨.putShard ⟨ns, blobId, shard.index⟩ bytes, .ok ()⟩] ++ suffix := by
            rw [List.append_assoc]
            exact List.subset_append_left _ _
          refine (later _).bind ?_ ?_
          · rintro more failure ⟨grown, refused, _⟩
            exact ⟨List.Subset.trans before grown, fun _ _ => refused failure rfl, by simp⟩
          · rintro more repaired ⟨grown, _, counted⟩
            rcases counted repaired rfl with ⟨count, mended⟩
            have here : (⟨.putShard ⟨ns, blobId, shard.index⟩ bytes, .ok ()⟩ : PortExchange) ∈
                past ++ [⟨.putShard ⟨ns, blobId, shard.index⟩ bytes, .ok ()⟩] ++ suffix := by
              simp
            refine ⟨List.Subset.trans before grown, by simp, ?_⟩
            intro total ended
            refine ⟨?_, ?_⟩
            · rw [List.countP_cons_of_pos (by simp [isBad]), ← count]
              exact (Except.ok.inj ended).symm
            · exact List.forall_mem_cons.mpr ⟨fun _ => ⟨bytes, grown here⟩, mended⟩
      · rw [if_pos isBad, List.countP_cons_of_neg (by simp [isBad])]
        refine (later past).conclude ?_
        rintro more result ⟨grown, refused, counted⟩
        refine ⟨grown, refused, ?_⟩
        intro repaired ended
        rcases counted repaired ended with ⟨count, mended⟩
        exact ⟨count, List.forall_mem_cons.mpr ⟨fun wasBad => absurd wasBad isBad, mended⟩⟩

/-- What a pass reports which found these shards bad. -/
structure Reports (manifest : Manifest) (bad : List UInt16) (report : RepairReport) : Prop where
  checked : report.checked = manifest.erasure.n.toNat
  total : report.healthy + report.stillBad = manifest.erasure.n.toNat
  repaired : report.unrepairable = false → report.repaired = bad.length ∧ report.stillBad = 0
  unrepaired : report.unrepairable = true → report.repaired = 0 ∧ report.stillBad = bad.length

/-- How a pass ends which found these shards bad. -/
structure Settles (ns : NamespaceId) (blobId : BlobId) (manifest : Manifest) (bad : List UInt16)
    (past : List PortExchange) (result : Except Failure RepairReport) : Prop where
  failed : ∀ failure, result = .error failure → Refused past
  reports : ∀ report, result = .ok report → Reports manifest bad report
  untouched : ∀ report, result = .ok report → report.unrepairable = true →
    bad ≠ [] ∧ ∀ made ∈ past, ReadOnly made.1
  mended : ∀ report, result = .ok report → report.unrepairable = false →
    Mended ns blobId bad manifest.shards past

theorem rebuild_settles (holds : node.Holds manifest ciphertext word) (transport : Bool)
    {bad : List UInt16} (someBad : bad ≠ [])
    (counted : manifest.shards.countP (fun shard => decide (shard.index ∈ bad)) = bad.length)
    {slots : List (Option Bytes)} (masks : Masks slots word) {past : List PortExchange}
    (reads : ∀ made ∈ past, ReadOnly made.1) :
    ((node.repair transport).rebuild ns blobId manifest slots bad).Obeys
      (fun _ => Mending ns blobId bad word) past (Settles ns blobId manifest bad) := by
  have few : bad.length ≤ manifest.shards.length := by
    rw [← counted]
    exact List.countP_le_length
  by_cases enough : manifest.erasure.k.toNat ≤ filled slots
  · rw [rebuild_eq holds transport masks enough]
    refine (rewrite_mending _ bad ?_ past).bind ?_ ?_
    · intro shard listed
      rcases (holds.encodes.records.mem holds.few listed).2 with ⟨bytes, symbol, -⟩
      exact ⟨bytes, symbol⟩
    · rintro suffix failure ⟨_, refused, _⟩
      exact ⟨fun _ _ => refused failure rfl, by simp, by simp, by simp⟩
    · rintro suffix repaired ⟨_, _, done⟩
      rcases done repaired rfl with ⟨count, mended⟩
      rw [counted] at count
      refine ⟨by simp, ?_, ?_, ?_⟩
      · intro report ended
        rcases Except.ok.inj ended with rfl
        refine ⟨holds.length_shards, ?_, fun _ => ⟨count, rfl⟩, by simp⟩
        dsimp only
        rw [← holds.length_shards]
        omega
      · intro report ended isUnrepairable
        rcases Except.ok.inj ended with rfl
        cases isUnrepairable
      · exact fun _ _ _ => mended
  · rw [rebuild]
    simp only [Manifest.isReconstructable, enough, decide_false, Bool.false_eq_true, if_false]
    refine ⟨by simp, ?_, fun _ _ _ => ⟨someBad, reads⟩, ?_⟩
    · intro report ended
      rcases Except.ok.inj ended with rfl
      refine ⟨holds.length_shards, ?_, by simp, fun _ => ⟨rfl, rfl⟩⟩
      dsimp only
      rw [← holds.length_shards]
      omega
    · intro report ended repairable
      rcases Except.ok.inj ended with rfl
      cases repairable

/-- Whatever the ports answer, a pass which found these shards bad writes at their places only,
and what it says of itself is true. -/
theorem settle_settles (collisionFree : CollisionFree node.sha256Hex)
    (holds : node.Holds manifest ciphertext word) (transport : Bool) {bad : List UInt16}
    (counted : manifest.shards.countP (fun shard => decide (shard.index ∈ bad)) = bad.length)
    {slots : List (Option Bytes)} (masks : Masks slots word) :
    ((node.repair transport).settle ns blobId manifest slots bad).Obeys
      (fun _ => Mending ns blobId bad word) [] (Settles ns blobId manifest bad) := by
  unfold settle
  dsimp only
  by_cases noneBad : bad = []
  · subst noneBad
    rw [if_pos rfl]
    refine ⟨by simp, ?_, ?_, ?_⟩
    · intro report ended
      rcases Except.ok.inj ended with rfl
      exact ⟨holds.length_shards, holds.length_shards, fun _ => ⟨rfl, rfl⟩, by simp⟩
    · intro report ended isUnrepairable
      rcases Except.ok.inj ended with rfl
      cases isUnrepairable
    · intro _ _ _ shard _ isBad
      cases isBad
  · rw [if_neg noneBad]
    split
    · exact rebuild_settles holds transport noneBad counted masks (by simp)
    · refine (((backfillFromPeers_sound collisionFree holds transport ns blobId masks bad
        []).confined fun _ _ reads => reads).weaken (permits_mending ns blobId bad word)).bind ?_ ?_
      · rintro _ _ ⟨⟨_, impossible, _⟩, _⟩
        cases impossible
      · rintro suffix borrowed ⟨⟨filledSlots, same, masksToo⟩, reading, grown, reads⟩
        rcases Except.ok.inj same with rfl
        rw [List.nil_append] at grown
        subst grown
        exact rebuild_settles holds transport noneBad counted masksToo reads

/-! ## What a pass does to the anchor -/

variable {env : Environment} {faults : Faults}
  {left : NamespaceId → BlobId → ShardMap → ShardMap} {state : World ShardMap}
  {bad : List UInt16}

/-- The moment differs from the state in bad shards only, which have their symbols. -/
structure Touched (ns : NamespaceId) (blobId : BlobId) (bad : List UInt16) (word : List Bytes)
    (state moment : World ShardMap) : Prop where
  store : moment.store = state.store
  shards : ∀ ref : ShardRef, moment.anchor ref = state.anchor ref ∨
    ref.ns = ns ∧ ref.blobId = blobId ∧ ref.index ∈ bad ∧
      moment.anchor ref = word[ref.index.toNat]?

variable (env faults left) in
/-- One call of a pass: it stores a shard, or it leaves the anchor as it is. -/
theorem mending_step {call : PortCall} (mending : Mending ns blobId bad word call)
    (moment : World ShardMap) :
    ((faultyWorld env shardMap faults left).answer moment call).2.store = moment.store ∧
      ((((faultyWorld env shardMap faults left).answer moment call).2.anchor = moment.anchor ∧
          ∀ ref bytes, (⟨call, ((faultyWorld env shardMap faults left).answer moment call).1⟩ :
            PortExchange) ≠ ⟨.putShard ref bytes, .ok ()⟩) ∨
        ∃ ref bytes, call = .putShard ref bytes ∧
          ((faultyWorld env shardMap faults left).answer moment call).2.anchor =
            Function.update moment.anchor ref (some bytes)) := by
  by_cases works : faults.Works call
  · rw [faulty_answer_of_works works]
    cases call with
    | putShard ref bytes => exact ⟨rfl, Or.inr ⟨ref, bytes, rfl, rfl⟩⟩
    | _ => first | exact mending.elim | exact ⟨rfl, Or.inl ⟨rfl, by rintro _ _ ⟨⟩⟩⟩
  · rcases faulty_answer_of_fails works with ⟨error, answer, failed, answered⟩
    rw [answered]
    cases call with
    | putShard ref bytes =>
        rcases Option.some.inj failed with rfl
        exact ⟨rfl, Or.inl ⟨rfl, by rintro _ _ ⟨⟩⟩⟩
    | _ => first | exact mending.elim | exact ⟨rfl, Or.inl ⟨rfl, by rintro _ _ ⟨⟩⟩⟩

variable (env faults left) in
/-- A program which only mends touches bad shards only, at every moment, and what it was told to be
stored is stored. -/
theorem mending_run {α : Type} {program : UseCase α}
    {post : List PortExchange → Except Failure α → Prop}
    (obeys : program.Obeys (fun _ => Mending ns blobId bad word) [] post)
    (state : World ShardMap) :
    Touched ns blobId bad word state
        (program.run (faultyWorld env shardMap faults left) state).2 ∧
      (∀ moment ∈ program.visits (faultyWorld env shardMap faults left) state,
        Touched ns blobId bad word state moment) ∧
      ∀ ref bytes, (⟨.putShard ref bytes, .ok ()⟩ : PortExchange) ∈
          program.transcript (faultyWorld env shardMap faults left) state →
        (program.run (faultyWorld env shardMap faults left) state).2.anchor ref =
          word[ref.index.toNat]? := by
  have throughout := obeys.run_invariant
    (fun past moment => Touched ns blobId bad word state moment ∧
      ∀ ref bytes, (⟨.putShard ref bytes, .ok ()⟩ : PortExchange) ∈ past →
        moment.anchor ref = word[ref.index.toNat]?)
    (faultyWorld env shardMap faults left) state
    ⟨⟨rfl, fun _ => Or.inl rfl⟩, by simp⟩ ?_
  · refine ⟨throughout.1.1, ?_, throughout.1.2⟩
    intro moment visited
    rcases throughout.2 moment visited with ⟨_, touched, _⟩
    exact touched
  · rintro past call moment mending ⟨touched, stored⟩
    rcases mending_step env faults left mending moment with
      ⟨sameStore, ⟨sameAnchor, notStored⟩ | ⟨target, symbol, rfl, written⟩⟩
    · refine ⟨⟨sameStore.trans touched.store, ?_⟩, ?_⟩
      · rw [sameAnchor]
        exact touched.shards
      · intro ref bytes present
        rw [sameAnchor]
        rcases List.mem_append.mp present with before | now
        · exact stored ref bytes before
        · exact absurd (List.mem_singleton.mp now).symm (notStored ref bytes)
    · rcases mending with ⟨sameNs, sameBlob, isBad, found⟩
      have symbolAt : Function.update moment.anchor target (some symbol) target =
          word[target.index.toNat]? := by
        rw [Function.update_self, found]
      refine ⟨⟨sameStore.trans touched.store, ?_⟩, ?_⟩
      · intro ref
        rw [written]
        by_cases here : ref = target
        · subst here
          exact Or.inr ⟨sameNs, sameBlob, isBad, symbolAt⟩
        · rw [Function.update_of_ne here]
          exact touched.shards ref
      · intro ref bytes present
        rw [written]
        by_cases here : ref = target
        · subst here
          exact symbolAt
        · rw [Function.update_of_ne here]
          rcases List.mem_append.mp present with before | now
          · exact stored ref bytes before
          · have same := congrArg Sigma.fst (List.mem_singleton.mp now)
            exact absurd (PortCall.putShard.inj same).1 here

/-! ## Before the first write -/

/-- The part of a pass which reads the manifest and the anchor. -/
def inspect (self : RepairShards) (ns : NamespaceId) (blobId : BlobId) :
    UseCase (Manifest × List (Option Bytes) × List UInt16) := do
  let found ← getManifest ns blobId
  let manifest ← okOr found .notFound
  let (collected, bad) ← self.classify ns blobId manifest.shards
  pure (manifest, collected, bad)

theorem execute_eq (self : RepairShards) (ns : NamespaceId) (blobId : BlobId) :
    self.execute ns blobId = self.inspect ns blobId >>= fun inspected =>
      self.settle ns blobId inspected.1 inspected.2.1 inspected.2.2 := by
  simp only [execute, inspect, bind_assoc, pure_bind]
  rfl

theorem inspect_obeys (self : RepairShards) (ns : NamespaceId) (blobId : BlobId) :
    (self.inspect ns blobId).Obeys (fun _ => ReadOnly) [] fun _ _ => True := by
  refine Program.Obeys.call_bind trivial (fun _ _ _ => trivial) ?_
  intro _ found _
  cases found with
  | none => exact trivial
  | some manifest =>
      exact (self.classify_obeys permits_readOnly ns blobId manifest.shards _).bind
        (fun _ _ _ => trivial) fun _ _ _ => trivial

theorem getShard_run_faulty (honest : faults.Honest) (ref : ShardRef) (state : World ShardMap) :
    (VaultMesh.getShard ref).run (faultyWorld env shardMap faults left) state =
        (.ok (state.anchor.read ref), state.ticked 1) ∨
      ∃ error, error ≠ .notFound ∧
        (VaultMesh.getShard ref).run (faultyWorld env shardMap faults left) state =
          (.ok (.error error), state.ticked 1) := by
  cases failing : faults.call (.getShard ref) with
  | none =>
      left
      have works : faults.Works (.getShard ref) := by
        simp [Faults.Works, Faults.answer, Faults.error, failing]
      rw [VaultMesh.getShard, Program.run_call, faulty_answer_of_works works]
      rfl
  | some error =>
      right
      refine ⟨error, ?_, ?_⟩
      · intro same
        exact honest ref (failing.trans (congrArg some same))
      · have answered : faults.answer (.getShard ref) = some (.error error) := by
          simp [Faults.answer, Faults.error, failing, PortCall.failed]
        simp only [VaultMesh.getShard, Program.run_call, Program.run_done, faultyWorld,
          Handler.failing, answered]
        rfl

variable (env left) in
/-- Reading the anchor finds out which shards are bad, or it fails. -/
theorem classify_run_faulty (honest : faults.Honest) (self : RepairShards) (ns : NamespaceId)
    (blobId : BlobId) (recorded : List Shard) (state : World ShardMap) :
    (∃ ticks, (self.classify ns blobId recorded).run (faultyWorld env shardMap faults left) state =
        (.ok (recorded.map (validCopy self.sha256Hex state.anchor ns blobId),
          badIndices self.sha256Hex state.anchor ns blobId recorded), state.ticked ticks)) ∨
      ∃ failure ticks,
        (self.classify ns blobId recorded).run (faultyWorld env shardMap faults left) state =
          (.error failure, state.ticked ticks) := by
  induction recorded generalizing state with
  | nil => exact Or.inl ⟨0, rfl⟩
  | cons shard recorded ih =>
      have ticked := ih (state.ticked 1)
      rw [World.anchor_ticked] at ticked
      rcases getShard_run_faulty honest ⟨ns, blobId, shard.index⟩ state with
        asked | ⟨error, present, asked⟩
      · rcases ticked with ⟨ticks, rest⟩ | ⟨failure, ticks, rest⟩
        · left
          refine ⟨1 + ticks, ?_⟩
          rw [World.ticked_ticked] at rest
          exact classify_cons_run asked rest
        · right
          refine ⟨failure, 1 + ticks, ?_⟩
          rw [World.ticked_ticked] at rest
          rw [classify, Program.run_bind_of_ok asked]
          cases stored : state.anchor ⟨ns, blobId, shard.index⟩ with
          | none => simp only [ShardMap.read, stored, Program.run_bind_of_error rest]
          | some bytes => simp only [ShardMap.read, stored, Program.run_bind_of_error rest]
      · right
        refine ⟨.port error, 1, ?_⟩
        rw [classify, Program.run_bind_of_ok asked]
        cases error <;> first | exact absurd rfl present | rfl

variable (env left) in
/-- Before it writes anything, a pass finds out which shards are bad, or it fails. -/
theorem inspect_run_faulty (honest : faults.Honest) (self : RepairShards)
    (found : state.store.getManifest ns blobId = some manifest) :
    (∃ ticks, (self.inspect ns blobId).run (faultyWorld env shardMap faults left) state =
        (.ok (manifest, manifest.shards.map (validCopy self.sha256Hex state.anchor ns blobId),
          badIndices self.sha256Hex state.anchor ns blobId manifest.shards),
          state.ticked ticks)) ∨
      ∃ failure ticks,
        (self.inspect ns blobId).run (faultyWorld env shardMap faults left) state =
          (.error failure, state.ticked ticks) := by
  by_cases works : faults.Works (.getManifest ns blobId)
  · have asked : (VaultMesh.getManifest ns blobId).run (faultyWorld env shardMap faults left)
        state = (.ok (some manifest), state.ticked 1) := by
      rw [VaultMesh.getManifest, Program.run_call, faulty_answer_of_works works, ← found]
      rfl
    rw [inspect, Program.run_bind_of_ok asked, okOr_some, pure_bind]
    rcases classify_run_faulty env left honest self ns blobId manifest.shards
      (state.ticked 1) with ⟨ticks, classified⟩ | ⟨failure, ticks, failed⟩
    · left
      rw [World.ticked_ticked] at classified
      exact ⟨1 + ticks, Program.run_bind_of_ok classified _⟩
    · right
      rw [World.ticked_ticked] at failed
      exact ⟨failure, 1 + ticks, Program.run_bind_of_error failed _⟩
  · right
    rcases run_of_fails (.getManifest ns blobId) question (fun _ => rfl) works _ with
      ⟨failure, failed⟩
    exact ⟨failure, 1, failed⟩

theorem countP_badIndices (holds : node.Holds manifest ciphertext word) (shards : ShardMap) :
    manifest.shards.countP (fun shard => decide (shard.index ∈
        badIndices node.sha256Hex shards ns blobId manifest.shards)) =
      (badIndices node.sha256Hex shards ns blobId manifest.shards).length := by
  have nodup := holds.encodes.records.nodup holds.few
  apply Nat.le_antisymm
  · rw [badIndices, List.length_map, ← List.countP_eq_length_filter]
    apply List.countP_mono_left
    intro shard present isBad
    rw [← badIndices, decide_eq_true_eq] at isBad
    rw [(mem_badIndices_iff nodup present).mp isBad]
    rfl
  · exact length_badIndices_le_countP node.sha256Hex shards ns blobId manifest.shards

/-! ## The whole pass -/

/-- The run only reads, and the anchor stays as it is. -/
structure Untouched (handler : Handler ports (World ShardMap)) (pass : UseCase RepairReport)
    (state : World ShardMap) : Prop where
  reads : ∀ made ∈ pass.transcript handler state, ReadOnly made.1
  same : ∀ moment ∈ (pass.run handler state).2 :: pass.visits handler state,
    moment.anchor = state.anchor ∧ moment.store = state.store

/-- A pass reads, or writes back what the put of the blob wrote where a shard is bad. -/
def Restoring (ns : NamespaceId) (blobId : BlobId) (bad : List UInt16)
    (puts : List PortExchange) : PortCall → Prop
  | .putShard ref bytes => ref.ns = ns ∧ ref.blobId = blobId ∧ ref.index ∈ bad ∧
      (⟨.putShard ref bytes, .ok ()⟩ : PortExchange) ∈ puts
  | request => ReadOnly request

theorem Mending.restoring {puts : List PortExchange}
    (originals : ∀ (index : UInt16) bytes, word[index.toNat]? = some bytes →
      (⟨.putShard ⟨ns, blobId, index⟩ bytes, .ok ()⟩ : PortExchange) ∈ puts)
    {call : PortCall} (mending : Mending ns blobId bad word call) :
    Restoring ns blobId bad puts call := by
  cases call with
  | putShard ref bytes =>
      rcases mending with ⟨sameNs, sameBlob, isBad, symbol⟩
      cases ref with
      | mk refNs refBlob index =>
          dsimp only at sameNs sameBlob
          subst sameNs sameBlob
          exact ⟨rfl, rfl, isBad, originals index bytes symbol⟩
  | _ => exact mending

theorem restoring_of_readOnly {puts : List PortExchange} {call : PortCall}
    (reads : ReadOnly call) : Restoring ns blobId bad puts call := by
  cases call <;> first | exact trivial | exact reads.elim

/--
What a pass does from a state in which these shards are bad. `puts` is what the put of the blob
did.
-/
structure Exact (node : Node) (ns : NamespaceId) (manifest : Manifest) (puts : List PortExchange)
    (handler : Handler ports (World ShardMap)) (pass : UseCase RepairReport)
    (state : World ShardMap) (bad : List UInt16) : Prop where
  calls : ∀ made ∈ pass.transcript handler state,
    Restoring ns manifest.blobId bad puts made.1
  keeps : ∀ moment ∈ (pass.run handler state).2 :: pass.visits handler state,
    ∀ shard ∈ manifest.shards, ∀ bytes,
      validCopy node.sha256Hex state.anchor ns manifest.blobId shard = some bytes →
        validCopy node.sha256Hex moment.anchor ns manifest.blobId shard = some bytes
  failed : ∀ failure, (pass.run handler state).1 = .error failure →
    Refused (pass.transcript handler state) ∨ Untouched handler pass state
  reports : ∀ report, (pass.run handler state).1 = .ok report → Reports manifest bad report
  unrepairable : ∀ report, (pass.run handler state).1 = .ok report → report.unrepairable = true →
    0 < report.stillBad ∧ Untouched handler pass state

/-- A run which only made reading calls left everything as it was. -/
theorem same_of_reads {α : Type} (program : UseCase α) (state : World ShardMap)
    (reads : ∀ made ∈ program.transcript (faultyWorld env shardMap faults left) state,
      ReadOnly made.1) :
    ∀ moment ∈ (program.run (faultyWorld env shardMap faults left) state).2 ::
        program.visits (faultyWorld env shardMap faults left) state,
      moment.anchor = state.anchor ∧ moment.store = state.store := by
  induction program generalizing state with
  | done result =>
      intro moment visited
      rcases List.mem_singleton.mp visited with rfl
      exact ⟨rfl, rfl⟩
  | call request rest ih =>
      have reading : ReadOnly request := reads _ List.mem_cons_self
      have later := ih _ _ fun made present => reads made (List.mem_cons_of_mem _ present)
      rw [faulty_answer_of_readOnly env shardMap faults left reading] at later
      intro moment visited
      simp only [Program.visits, Program.run_call, List.mem_cons] at visited later
      rcases visited with atEnd | atStart | onTheWay
      · apply later moment
        left
        rw [atEnd, faulty_answer_of_readOnly env shardMap faults left reading]
      · rw [atStart]
        exact ⟨rfl, rfl⟩
      · apply later moment
        right
        rw [← faulty_answer_of_readOnly env shardMap faults left reading]
        exact onTheWay

/-- Touching bad shards keeps the valid ones. -/
theorem Touched.validCopy {moment : World ShardMap} (holds : node.Holds manifest ciphertext word)
    (touched : Touched ns blobId (badIndices node.sha256Hex state.anchor ns blobId manifest.shards)
      word state moment) {shard : Shard} (listed : shard ∈ manifest.shards) {bytes : Bytes}
    (copy : RepairShards.validCopy node.sha256Hex state.anchor ns blobId shard = some bytes) :
    RepairShards.validCopy node.sha256Hex moment.anchor ns blobId shard = some bytes := by
  rcases touched.shards ⟨ns, blobId, shard.index⟩ with same | ⟨-, -, isBad, -⟩
  · simpa only [RepairShards.validCopy, same] using copy
  · have nodup := holds.encodes.records.nodup holds.few
    rw [(mem_badIndices_iff nodup listed).mp isBad] at copy
    cases copy

variable {puts : List PortExchange}

section Reading

variable {α : Type} {first : UseCase α} {next : α → UseCase RepairReport}
  {post : List PortExchange → Except Failure α → Prop}

theorem reads_of_obeys (obeys : first.Obeys (fun _ => ReadOnly) [] post)
    (handler : Handler ports (World ShardMap)) (state : World ShardMap) :
    ∀ made ∈ first.transcript handler state, ReadOnly made.1 := by
  intro made present
  rcases obeys.permitted handler state present with ⟨_, reads⟩
  exact reads

/-- A pass which fails while it only reads. -/
theorem exact_of_reads (obeys : first.Obeys (fun _ => ReadOnly) [] post) {failure : Failure}
    {last : World ShardMap}
    (ran : first.run (faultyWorld env shardMap faults left) state = (.error failure, last)) :
    Exact node ns manifest puts (faultyWorld env shardMap faults left) (first >>= next) state
      bad := by
  have ended := Program.run_bind_of_error ran next
  have reads : ∀ made ∈ (first >>= next).transcript (faultyWorld env shardMap faults left) state,
      ReadOnly made.1 := by
    rw [Program.transcript_bind, ran, List.append_nil]
    exact reads_of_obeys obeys _ state
  have same := same_of_reads (first >>= next) state reads
  refine ⟨?_, ?_, fun _ _ => Or.inr ⟨reads, same⟩, by simp [ended], by simp [ended]⟩
  · exact fun made present => restoring_of_readOnly (reads made present)
  · intro moment visited shard _ bytes copy
    rw [(same moment visited).1]
    exact copy

/-- A pass which has only read so far does the same as what is left of it. -/
theorem Untouched.after_reads (obeys : first.Obeys (fun _ => ReadOnly) [] post) {value : α}
    {ticks : ℕ} (ran : first.run (faultyWorld env shardMap faults left) state =
      (.ok value, state.ticked ticks))
    (untouched : Untouched (faultyWorld env shardMap faults left) (next value)
      (state.ticked ticks)) :
    Untouched (faultyWorld env shardMap faults left) (first >>= next) state := by
  have reads : ∀ made ∈ (first >>= next).transcript (faultyWorld env shardMap faults left) state,
      ReadOnly made.1 := by
    rw [Program.transcript_bind_of_ok ran]
    intro made present
    rcases List.mem_append.mp present with reading | later
    · exact reads_of_obeys obeys _ state made reading
    · exact untouched.reads made later
  exact ⟨reads, same_of_reads _ state reads⟩

theorem Exact.after_reads (obeys : first.Obeys (fun _ => ReadOnly) [] post) {value : α}
    {ticks : ℕ} (ran : first.run (faultyWorld env shardMap faults left) state =
      (.ok value, state.ticked ticks))
    (rest : Exact node ns manifest puts (faultyWorld env shardMap faults left) (next value)
      (state.ticked ticks) bad) :
    Exact node ns manifest puts (faultyWorld env shardMap faults left) (first >>= next) state
      bad := by
  have ended := Program.run_bind_of_ok ran next
  have exchanged := Program.transcript_bind_of_ok ran next
  have reads := reads_of_obeys obeys (faultyWorld env shardMap faults left) state
  refine ⟨?_, ?_, ?_, ?_, ?_⟩
  · intro made present
    rw [exchanged] at present
    rcases List.mem_append.mp present with reading | later
    · exact restoring_of_readOnly (reads made reading)
    · exact rest.calls made later
  · intro moment visited
    rw [ended, Program.visits_bind_of_ok ran, List.mem_cons, List.mem_append] at visited
    rcases visited with atEnd | reading | later
    · exact rest.keeps moment (List.mem_cons.mpr (Or.inl atEnd))
    · intro shard _ bytes copy
      rw [(same_of_reads first state reads moment (List.mem_cons_of_mem _ reading)).1]
      exact copy
    · exact rest.keeps moment (List.mem_cons_of_mem _ later)
  · intro failure failed
    rw [ended] at failed
    rcases rest.failed failure failed with ⟨ref, bytes, error, refused⟩ | untouched
    · left
      refine ⟨ref, bytes, error, ?_⟩
      rw [exchanged]
      exact List.mem_append_right _ refused
    · right
      exact untouched.after_reads obeys ran
  · rw [ended]
    exact rest.reports
  · rw [ended]
    intro report reported isUnrepairable
    rcases rest.unrepairable report reported isUnrepairable with ⟨stillBad, untouched⟩
    exact ⟨stillBad, untouched.after_reads obeys ran⟩

end Reading

variable (env faults left state) in
/-- What a pass does once it has read the anchor. -/
theorem settle_exact (collisionFree : CollisionFree node.sha256Hex)
    (holds : node.Holds manifest ciphertext word) (transport : Bool)
    (originals : ∀ (index : UInt16) bytes, word[index.toNat]? = some bytes →
      (⟨.putShard ⟨ns, manifest.blobId, index⟩ bytes, .ok ()⟩ : PortExchange) ∈ puts)
    (classified : badIndices node.sha256Hex state.anchor ns manifest.blobId manifest.shards = bad) :
    Exact node ns manifest puts (faultyWorld env shardMap faults left)
        ((node.repair transport).settle ns manifest.blobId manifest
          (readSlots node manifest ns manifest.blobId state.anchor) bad) state bad ∧
      ∀ report last, ((node.repair transport).settle ns manifest.blobId manifest
          (readSlots node manifest ns manifest.blobId state.anchor) bad).run
            (faultyWorld env shardMap faults left) state = (.ok report, last) →
        report.unrepairable = false →
          last.store = state.store ∧ last.anchor.Keeps ns manifest.blobId word ∅ := by
  have counted : manifest.shards.countP (fun shard => decide (shard.index ∈ bad)) =
      bad.length := by
    rw [← classified]
    exact countP_badIndices holds state.anchor
  have obeys : ((node.repair transport).settle ns manifest.blobId manifest
      (readSlots node manifest ns manifest.blobId state.anchor) bad).Obeys
        (fun _ => Mending ns manifest.blobId bad word) []
        (Settles ns manifest.blobId manifest bad) :=
    settle_settles collisionFree holds transport counted (masks_readSlots collisionFree holds _)
  rcases mending_run env faults left obeys state with
    ⟨atEnd, onTheWay, written⟩
  have settles := obeys.run (faultyWorld env shardMap faults left) state
  rw [List.nil_append] at settles
  refine ⟨⟨?_, ?_, ?_, ?_, ?_⟩, ?_⟩
  · intro made present
    rcases obeys.permitted _ _ present with ⟨_, mending⟩
    exact mending.restoring originals
  · intro moment visited shard listed bytes copy
    subst classified
    rcases List.mem_cons.mp visited with rfl | later
    · exact atEnd.validCopy holds listed copy
    · exact (onTheWay moment later).validCopy holds listed copy
  · exact fun failure failed => Or.inl (settles.failed failure failed)
  · exact settles.reports
  · intro report reported isUnrepairable
    rcases settles.untouched report reported isUnrepairable with ⟨someBad, reads⟩
    refine ⟨?_, reads, same_of_reads _ state reads⟩
    rw [((settles.reports report reported).unrepaired isUnrepairable).2]
    exact List.length_pos_iff.mpr someBad
  · intro report last ended repairable
    have reported := congrArg Prod.fst ended
    have sameLast := congrArg Prod.snd ended
    dsimp only at reported sameLast
    subst sameLast
    refine ⟨atEnd.store, ?_⟩
    refine keeps_all collisionFree holds (?_ : ∀ index, _ = state.anchor _ ∨ _) ?_
    · intro index
      rcases atEnd.shards ⟨ns, manifest.blobId, index⟩ with same | ⟨-, -, -, mended⟩
      · exact Or.inl same
      · exact Or.inr mended
    · intro shard listed isBad
      rw [classified] at isBad
      rcases settles.mended report reported repairable shard listed isBad with ⟨bytes, stored⟩
      exact written _ bytes stored

variable (env left) in
/-- A pass over a blob whose word is known, whatever fails. -/
theorem execute_exact (collisionFree : CollisionFree node.sha256Hex) (honest : faults.Honest)
    (holds : node.Holds manifest ciphertext word) (transport : Bool)
    (originals : ∀ (index : UInt16) bytes, word[index.toNat]? = some bytes →
      (⟨.putShard ⟨ns, manifest.blobId, index⟩ bytes, .ok ()⟩ : PortExchange) ∈ puts)
    (found : state.store.getManifest ns manifest.blobId = some manifest) :
    Exact node ns manifest puts (faultyWorld env shardMap faults left)
        ((node.repair transport).execute ns manifest.blobId) state
        (badIndices node.sha256Hex state.anchor ns manifest.blobId manifest.shards) ∧
      ∀ report last, ((node.repair transport).execute ns manifest.blobId).run
          (faultyWorld env shardMap faults left) state = (.ok report, last) →
        report.unrepairable = false →
          last.store = state.store ∧ last.anchor.Keeps ns manifest.blobId word ∅ := by
  have reads := inspect_obeys (node.repair transport) ns manifest.blobId
  rw [execute_eq]
  rcases inspect_run_faulty env left honest (node.repair transport) found with
    ⟨ticks, inspected⟩ | ⟨failure, ticks, inspected⟩
  · rcases settle_exact env faults left (state.ticked ticks) collisionFree holds transport originals
      rfl with ⟨exact, whole⟩
    refine ⟨exact.after_reads reads inspected, ?_⟩
    rw [Program.run_bind_of_ok inspected]
    exact whole
  · refine ⟨exact_of_reads reads inspected, ?_⟩
    rw [Program.run_bind_of_error inspected]
    simp

/-! ## One pass after another -/

theorem badIndices_of_keeps (holds : node.Holds manifest ciphertext word)
    (keeps : state.anchor.Keeps ns blobId word ∅) :
    badIndices node.sha256Hex state.anchor ns blobId manifest.shards = [] := by
  rw [badIndices, List.map_eq_nil_iff, List.filter_eq_nil_iff]
  intro shard listed
  rcases (holds.encodes.records.mem holds.few listed).2 with ⟨bytes, symbol, hash⟩
  have stored : state.anchor ⟨ns, blobId, shard.index⟩ = some bytes := by
    rw [keeps shard.index (Finset.notMem_empty _) (List.getElem?_eq_some_iff.mp symbol).1, symbol]
  simp [validCopy, stored, hash]

/-- A pass which finds no shard bad only reads. -/
theorem Exact.untouched {pass : UseCase RepairReport}
    (exact : Exact node ns manifest puts (faultyWorld env shardMap faults left) pass state []) :
    Untouched (faultyWorld env shardMap faults left) pass state := by
  have reads : ∀ made ∈ pass.transcript (faultyWorld env shardMap faults left) state,
      ReadOnly made.1 := by
    rintro ⟨request, answer⟩ present
    have restoring := exact.calls _ present
    cases request with
    | putShard ref bytes => exact absurd restoring.2.2.1 List.not_mem_nil
    | _ => exact restoring
  exact ⟨reads, same_of_reads pass state reads⟩

/-- The shards which a put wrote are the symbols of the word which its manifest records. -/
theorem originals_of_admitted {mesh : Mesh} {token : CapabilityToken} {ciphertext : Slice}
    {before : List PortExchange} (collisionFree : CollisionFree node.sha256Hex)
    (admitted : (node.put mesh).Admitted ns token ciphertext before manifest)
    (encodes : manifest.Encodes (node.put mesh).erasure (node.put mesh).sha256Hex
      ciphertext.bytes word)
    (index : UInt16) {bytes : Bytes} (symbol : word[index.toNat]? = some bytes) :
    (⟨.putShard ⟨ns, manifest.blobId, index⟩ bytes, .ok ()⟩ : PortExchange) ∈ before := by
  have bound : index.toNat < manifest.shards.length := by
    rw [encodes.records.length_eq]
    exact (List.getElem?_eq_some_iff.mp symbol).1
  have listed : manifest.shards[index.toNat]? = some manifest.shards[index.toNat] := by
    simp [bound]
  rcases encodes.records.getElem? listed with ⟨sameIndex, recorded, found, hash⟩
  rcases Option.some.inj (symbol.symm.trans found) with rfl
  rcases admitted.stored _ (List.getElem_mem bound) with ⟨original, written, sameHash⟩
  rw [collisionFree (sameHash.trans hash), sameIndex, Nat.zero_add, UInt16.ofNat_toNat] at written
  exact written

/--
A pass over a blob which some put wrote writes only shards which are bad, and only what the put
wrote there, so it loses no valid shard, wherever it ends. A pass after one which mended the blob
changes nothing.
-/
theorem repair_pass_exact (collisionFree : CollisionFree node.sha256Hex) {mesh : Mesh}
    {token : CapabilityToken} {ciphertext : Slice} {σ : Type} (writer : Handler ports σ)
    (first : σ) {answer : PortResult Unit}
    (written : (⟨.putManifest manifest, answer⟩ : PortExchange) ∈
      ((node.put mesh).execute ns token ciphertext).transcript writer first)
    (valid : manifest.erasure.Valid) (fit : node.library.Fit manifest.erasure)
    (env : Environment) (honest : faults.Honest)
    (left : NamespaceId → BlobId → ShardMap → ShardMap) (transport : Bool)
    (stored : state.store.getManifest ns manifest.blobId = some manifest) :
    Exact node ns manifest (((node.put mesh).execute ns token ciphertext).transcript writer first)
        (faultyWorld env shardMap faults left)
        ((node.repair transport).execute ns manifest.blobId) state
        (badIndices node.sha256Hex state.anchor ns manifest.blobId manifest.shards) ∧
      ∀ report last, ((node.repair transport).execute ns manifest.blobId).run
          (faultyWorld env shardMap faults left) state = (.ok report, last) →
        report.unrepairable = false →
        ∀ (env' : Environment) (faults' : Faults)
          (left' : NamespaceId → BlobId → ShardMap → ShardMap) (transport' : Bool),
          faults'.Honest →
          Untouched (faultyWorld env' shardMap faults' left')
              ((node.repair transport').execute ns manifest.blobId) last ∧
            (∀ again, (((node.repair transport').execute ns manifest.blobId).run
                (faultyWorld env' shardMap faults' left') last).1 = .ok again →
              again.healthy = manifest.erasure.n.toNat ∧ again.repaired = 0) ∧
            ∃ again, (((node.repair transport').execute ns manifest.blobId).run
              (world env' shardMap) last).1 = .ok again := by
  rcases ((node.put mesh).execute_obeys ns token ciphertext).permitted_after writer first written
    with ⟨before, within, admitted, -⟩
  rw [List.nil_append] at within
  rcases admitted.encodes with ⟨word, encodes⟩
  have holds : node.Holds manifest ciphertext.bytes word := ⟨valid, fit, encodes⟩
  have originals : ∀ (index : UInt16) bytes, word[index.toNat]? = some bytes →
      (⟨.putShard ⟨ns, manifest.blobId, index⟩ bytes, .ok ()⟩ : PortExchange) ∈
        ((node.put mesh).execute ns token ciphertext).transcript writer first := by
    intro index bytes symbol
    exact within (originals_of_admitted collisionFree admitted encodes index symbol)
  rcases execute_exact env left collisionFree honest holds transport originals stored with
    ⟨exact, whole⟩
  refine ⟨exact, ?_⟩
  intro report last ended repairable env' faults' left' transport' honest'
  rcases whole report last ended repairable with ⟨sameStore, keeps⟩
  have found : last.store.getManifest ns manifest.blobId = some manifest := by
    rw [sameStore]
    exact stored
  have noneBad := badIndices_of_keeps holds keeps
  have second := (execute_exact env' left' collisionFree honest' holds transport' originals
    found).1
  rw [noneBad] at second
  refine ⟨second.untouched, ?_, ?_⟩
  · intro again reported
    have reports := second.reports again reported
    cases isUnrepairable : again.unrepairable with
    | true =>
        have stillBad := (second.unrepairable again reported isUnrepairable).1
        rw [(reports.unrepaired isUnrepairable).2] at stillBad
        cases stillBad
    | false =>
        rcases reports.repaired isUnrepairable with ⟨repaired, noneLeft⟩
        refine ⟨?_, repaired⟩
        rw [← reports.total, noneLeft, Nat.add_zero]
  · rw [execute_run transport' found, noneBad]
    exact ⟨_, rfl⟩

/-- Here the anchor lost one of two shards. -/
theorem repair_pass_exact_lyingWorld :
    ∃ last, ((replicatingNode.repair true).execute ⟨"ns-1"⟩ lyingManifest.blobId).run
        (faultyWorld lyingEnvironment shardMap .none fun _ _ shards => shards) lyingWorld =
          (.ok ⟨lyingManifest.blobId, 2, 2, 1, 0, false⟩, last) ∧
      Untouched (faultyWorld lyingEnvironment shardMap .none fun _ _ shards => shards)
        ((replicatingNode.repair true).execute ⟨"ns-1"⟩ lyingManifest.blobId) last := by
  have ran : ∃ last, ((replicatingNode.repair true).execute ⟨"ns-1"⟩ lyingManifest.blobId).run
      (faultyWorld lyingEnvironment shardMap .none fun _ _ shards => shards) lyingWorld =
        (.ok ⟨lyingManifest.blobId, 2, 2, 1, 0, false⟩, last) := ⟨_, rfl⟩
  have honest : Faults.none.Honest := fun _ => nofun
  have written : (⟨.putManifest lyingManifest, .ok ()⟩ : PortExchange) ∈
      ((replicatingNode.put ⟨true, ["peer-1"], ⟨none, true⟩⟩).execute ⟨"ns-1"⟩
        (sampleToken .put) (oneByte 7)).transcript (world lyingEnvironment shardMap)
          ⟨sampleStore ⟨10, 10⟩ ⟨1, 0⟩, fun _ => none, [], 0⟩ :=
    List.mem_of_getElem? (i := 11) rfl
  have stored : lyingWorld.store.getManifest ⟨"ns-1"⟩ lyingManifest.blobId =
      some lyingManifest := by
    rfl
  rcases ran with ⟨last, ended⟩
  rcases repair_pass_exact collisionFree_sampleDigest _ _ written (by decide)
    (replicatingNode_fit rfl) lyingEnvironment honest (fun _ _ shards => shards) true stored with
    ⟨-, again⟩
  exact ⟨last, ended,
    (again _ last ended rfl lyingEnvironment .none (fun _ _ shards => shards) true honest).1⟩

end RepairShards

end VaultMesh
