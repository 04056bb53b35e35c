import VaultMesh.Writes
import VaultMesh.World

/-!
# Ports which fail

Any call to a port may return an error, except that the clock and the id source
have no errors. `Faults` says which calls fail. No use-case makes the same call
twice in one execution, so a table of calls describes every way in which one
execution can be cut short. A call which fails changes nothing, except that a
failed deletion may have removed some of the shards.
-/

namespace VaultMesh

open Interaction Coding

/-- The error as an answer to the call. -/
def PortCall.failed (error : PortError) : (call : PortCall) → Option call.Answer
  | .now => none
  | .newId _ => none
  | .sign _ => some (.error error)
  | .verifySignature _ => some (.error error)
  | .registerApp _ => some (.error error)
  | .getContract _ => some (.error error)
  | .createNamespace _ => some (.error error)
  | .getNamespace _ => some (.error error)
  | .namespaceUsage _ => some (.error error)
  | .listNamespaces => some (.error error)
  | .putManifest _ => some (.error error)
  | .getManifest _ _ => some (.error error)
  | .listBlobs _ => some (.error error)
  | .deleteManifest _ _ => some (.error error)
  | .putShard _ _ => some (.error error)
  | .getShard _ => some (.error error)
  | .deleteBlob _ _ => some (.error error)
  | .sendShard _ _ _ => some (.error error)
  | .fetchShard _ _ => some (.error error)

/-- Which calls fail. Whether a manifest can be written depends on its address only. -/
structure Faults where
  manifest : NamespaceId → BlobId → Option PortError
  call : PortCall → Option PortError

namespace Faults

def error (faults : Faults) : PortCall → Option PortError
  | .putManifest manifest => faults.manifest manifest.ns manifest.blobId
  | call => faults.call call

def answer (faults : Faults) (call : PortCall) : Option call.Answer :=
  (faults.error call).bind fun error => call.failed error

def none : Faults :=
  ⟨fun _ _ => .none, fun _ => .none⟩

@[simp]
theorem answer_none (call : PortCall) : none.answer call = .none := by
  cases call <;> rfl

end Faults

/-- The call is answered as if nothing ever failed. -/
def Faults.Works (faults : Faults) (call : PortCall) : Prop :=
  faults.answer call = .none

instance (faults : Faults) (call : PortCall) : Decidable (faults.Works call) :=
  decidable_of_iff ((faults.answer call).isNone = true) (by simp [Faults.Works])

/-- What a failed call leaves of the world; `left` tells what a failed deletion leaves of the
anchor. -/
def World.afterFailure {A : Type} (left : NamespaceId → BlobId → A → A) (state : World A)
    (call : PortCall) : World A :=
  { state with
    anchor :=
      match call with
      | .deleteBlob ns blobId => left ns blobId state.anchor
      | _ => state.anchor
    tick := state.tick + 1 }

/-- The world in which some calls fail. -/
def faultyWorld {A : Type} (env : Environment) (anchors : AnchorModel A) (faults : Faults)
    (left : NamespaceId → BlobId → A → A) : Handler ports (World A) :=
  (world env anchors).failing fun state call =>
    (faults.answer call).map fun answer => (answer, state.afterFailure left call)

section Faulty

variable {A : Type} {env : Environment} {anchors : AnchorModel A} {faults : Faults}
  {left : NamespaceId → BlobId → A → A} {state : World A}

theorem faultyWorld_none : faultyWorld env anchors .none left = world env anchors := by
  simp [faultyWorld, Handler.failing]

theorem faulty_answer_of_works {call : PortCall} (works : faults.Works call) :
    (faultyWorld env anchors faults left).answer state call =
      (state.reply env anchors call, state.after anchors call) := by
  have noAnswer : faults.answer call = none := works
  simp [faultyWorld, Handler.failing, noAnswer, world]

theorem faulty_answer_of_fails {call : PortCall} (fails : ¬faults.Works call) :
    ∃ error answer, call.failed error = some answer ∧
      (faultyWorld env anchors faults left).answer state call =
        (answer, state.afterFailure left call) := by
  cases answered : faults.answer call with
  | none => exact absurd answered fails
  | some answer =>
      rcases Option.bind_eq_some_iff.mp answered with ⟨error, -, failed⟩
      exact ⟨error, answer, failed, by simp [faultyWorld, Handler.failing, answered]⟩

@[simp]
theorem Faults.works_now : faults.Works .now := by
  simp only [Works, answer, PortCall.failed]
  cases faults.error .now <;> rfl

@[simp]
theorem Faults.works_newId (kind : String) : faults.Works (.newId kind) := by
  simp only [Works, answer, PortCall.failed]
  cases faults.error (.newId kind) <;> rfl

@[simp]
theorem Faults.works_none (call : PortCall) : Faults.none.Works call :=
  answer_none call

variable {α β : Type} {call : PortCall}

/-- No failing answer to the call is taken for a value. -/
def Stops (call : PortCall) (decode : call.Answer → Except Failure α) : Prop :=
  ∀ error, (call.failed error).all (fun answer => !(decode answer).isOk) = true

variable (call) in
theorem run_of_works (decode : call.Answer → Except Failure α) (works : faults.Works call)
    {middle : α} (replied : decode (state.reply env anchors call) = .ok middle)
    (next : α → UseCase β) :
    ((Program.call call fun answer => .done (decode answer)) >>= next).run
        (faultyWorld env anchors faults left) state =
      (next middle).run (faultyWorld env anchors faults left) (state.after anchors call) := by
  rw [Program.call_bind, Program.run_call, faulty_answer_of_works works, replied]
  rfl

variable (call) in
theorem run_of_fails (decode : call.Answer → Except Failure α) (stops : Stops call decode)
    (fails : ¬faults.Works call) (next : α → UseCase β) :
    ∃ failure, ((Program.call call fun answer => .done (decode answer)) >>= next).run
        (faultyWorld env anchors faults left) state =
      (.error failure, state.afterFailure left call) := by
  rcases faulty_answer_of_fails fails with ⟨error, answer, failed, answered⟩
  have refused := stops error
  rw [failed] at refused
  rw [Program.call_bind, Program.run_call, answered]
  cases decoded : decode answer with
  | ok middle => simp [decoded, Except.isOk, Except.toBool] at refused
  | error failure => exact ⟨failure, rfl⟩

/-- A run ends well exactly if its first call works and the rest of the run ends well. -/
theorem run_ok_iff {decode : call.Answer → Except Failure α} (stops : Stops call decode)
    {next : α → UseCase β} {value : β} {last : World A} :
    ((Program.call call fun answer => .done (decode answer)) >>= next).run
        (faultyWorld env anchors faults left) state = (.ok value, last) ↔
      faults.Works call ∧ ∃ middle, decode (state.reply env anchors call) = .ok middle ∧
        (next middle).run (faultyWorld env anchors faults left) (state.after anchors call) =
          (.ok value, last) := by
  by_cases works : faults.Works call
  · cases replied : decode (state.reply env anchors call) with
    | ok middle =>
        rw [run_of_works call decode works replied]
        simp [works]
    | error failure =>
        rw [Program.call_bind, Program.run_call, faulty_answer_of_works works, replied]
        simp
  · rcases run_of_fails call decode stops works next with ⟨failure, failed⟩
    rw [failed]
    simp [works]

variable (env anchors faults left) in
/-- A call which only reads leaves everything but the time as it is. -/
theorem faulty_answer_of_readOnly {call : PortCall} (reads : ReadOnly call) (state : World A) :
    ((faultyWorld env anchors faults left).answer state call).2 =
      { state with tick := state.tick + 1 } := by
  by_cases works : faults.Works call
  · rw [faulty_answer_of_works works]
    simp only [World.after, MemoryMetadataStore.after_of_readOnly reads,
      AnchorModel.after_of_readOnly reads]
    cases call <;> first | rfl | exact reads.elim
  · rcases faulty_answer_of_fails works with ⟨error, answer, -, answered⟩
    rw [answered]
    cases call <;> first | rfl | exact reads.elim

/-- A program which only reads leaves the store, the anchor and the signer as they are. -/
theorem readOnly_run_faulty {program : UseCase α}
    {post : List PortExchange → Except Failure α → Prop}
    (obeys : program.Obeys (fun _ => ReadOnly) [] post) (state : World A) :
    ∃ ticks, (program.run (faultyWorld env anchors faults left) state).2 =
      { state with tick := ticks } := by
  refine ⟨_, (obeys.run_invariant (fun _ moment => moment = { state with tick := moment.tick })
    (faultyWorld env anchors faults left) state rfl ?_).1⟩
  intro past request moment reads same
  rw [faulty_answer_of_readOnly env anchors faults left reads, same]

end Faulty

/-! ## Calls one by one -/

/-- Some calls later, if nothing else changes. -/
def World.ticked {A : Type} (state : World A) (ticks : ℕ) : World A :=
  { state with tick := state.tick + ticks }

namespace World

variable {A : Type} (state : World A) (ticks : ℕ)

@[simp]
theorem store_ticked : (state.ticked ticks).store = state.store :=
  rfl

@[simp]
theorem anchor_ticked : (state.ticked ticks).anchor = state.anchor :=
  rfl

@[simp]
theorem tick_ticked : (state.ticked ticks).tick = state.tick + ticks :=
  rfl

@[simp]
theorem ticked_zero : state.ticked 0 = state :=
  rfl

@[simp]
theorem ticked_ticked (more : ℕ) :
    (state.ticked ticks).ticked more = state.ticked (ticks + more) := by
  simp [ticked, Nat.add_assoc]

end World

section Calls

variable {A : Type} {env : Environment} {anchors : AnchorModel A} {faults : Faults}
  {left : NamespaceId → BlobId → A → A} {state last : World A} {β : Type} {value : β}

theorem run_done_bind_ok_iff {α σ : Type} {handler : Handler ports σ} {result : Except Failure α}
    {next : α → UseCase β} {first final : σ} :
    ((Program.done result : UseCase α) >>= next).run handler first = (.ok value, final) ↔
      ∃ middle, result = .ok middle ∧ (next middle).run handler first = (.ok value, final) := by
  cases result <;> simp

theorem run_okOr_bind_ok_iff {α σ : Type} {handler : Handler ports σ} {found : Option α}
    {error : PortError} {next : α → UseCase β} {first final : σ} :
    (okOr found error >>= next).run handler first = (.ok value, final) ↔
      ∃ middle, found = some middle ∧ (next middle).run handler first = (.ok value, final) := by
  cases found <;> simp [Program.fail]

theorem run_ok_iff_of_reply {α : Type} (call : PortCall) (decode : call.Answer → Except Failure α)
    (stops : Stops call decode) {middle : α}
    (replied : decode (state.reply env anchors call) = .ok middle) {next : α → UseCase β} :
    ((Program.call call fun answer => .done (decode answer)) >>= next).run
        (faultyWorld env anchors faults left) state = (.ok value, last) ↔
      faults.Works call ∧ (next middle).run (faultyWorld env anchors faults left)
        (state.after anchors call) = (.ok value, last) := by
  rw [run_ok_iff stops, replied]
  simp

@[simp]
theorem now_run_ok_iff {next : Timestamp → UseCase β} :
    (now >>= next).run (faultyWorld env anchors faults left) state = (.ok value, last) ↔
      (next (env.clock state.tick)).run (faultyWorld env anchors faults left) (state.ticked 1) =
        (.ok value, last) :=
  (run_ok_iff_of_reply .now (fun answer => .ok answer) (fun _ => rfl) rfl).trans
    (and_iff_right Faults.works_now)

variable {token : CapabilityToken} {ns : NamespaceId} {app : AppId} {blobId : BlobId}

@[simp]
theorem verifySignature_run_ok_iff {next : Unit → UseCase β} :
    (verifySignature token >>= next).run (faultyWorld env anchors faults left) state =
        (.ok value, last) ↔
      faults.Works (.verifySignature token) ∧ env.verify state.signed token = .ok () ∧
        (next ()).run (faultyWorld env anchors faults left) (state.ticked 1) =
          (.ok value, last) := by
  refine (run_ok_iff (fun _ => rfl)).trans (and_congr_right fun _ => ?_)
  change (∃ middle, question (env.verify state.signed token) = .ok middle ∧ _) ↔ _
  cases env.verify state.signed token with
  | ok done =>
      simp only [question_ok, true_and]
      constructor
      · rintro ⟨_, ended⟩
        exact ended
      · intro ended
        exact ⟨_, ended⟩
  | error error => simp [question]

@[simp]
theorem getNamespace_run_ok_iff {next : Option Namespace → UseCase β} :
    (getNamespace ns >>= next).run (faultyWorld env anchors faults left) state =
        (.ok value, last) ↔
      faults.Works (.getNamespace ns) ∧
        (next (state.store.getNamespace ns)).run (faultyWorld env anchors faults left)
          (state.ticked 1) = (.ok value, last) :=
  run_ok_iff_of_reply (.getNamespace ns) question (fun _ => rfl) rfl

@[simp]
theorem getContract_run_ok_iff {next : Option AppContract → UseCase β} :
    (getContract app >>= next).run (faultyWorld env anchors faults left) state =
        (.ok value, last) ↔
      faults.Works (.getContract app) ∧
        (next (state.store.getContract app)).run (faultyWorld env anchors faults left)
          (state.ticked 1) = (.ok value, last) :=
  run_ok_iff_of_reply (.getContract app) question (fun _ => rfl) rfl

@[simp]
theorem namespaceUsage_run_ok_iff {next : NamespaceUsage → UseCase β} :
    (namespaceUsage ns >>= next).run (faultyWorld env anchors faults left) state =
        (.ok value, last) ↔
      faults.Works (.namespaceUsage ns) ∧
        (next (state.store.namespaceUsage ns)).run (faultyWorld env anchors faults left)
          (state.ticked 1) = (.ok value, last) :=
  run_ok_iff_of_reply (.namespaceUsage ns) question (fun _ => rfl) rfl

@[simp]
theorem getManifest_run_ok_iff {next : Option Manifest → UseCase β} :
    (getManifest ns blobId >>= next).run (faultyWorld env anchors faults left) state =
        (.ok value, last) ↔
      faults.Works (.getManifest ns blobId) ∧
        (next (state.store.getManifest ns blobId)).run (faultyWorld env anchors faults left)
          (state.ticked 1) = (.ok value, last) :=
  run_ok_iff_of_reply (.getManifest ns blobId) question (fun _ => rfl) rfl

@[simp]
theorem listBlobs_run_ok_iff {next : List BlobId → UseCase β} :
    (listBlobs ns >>= next).run (faultyWorld env anchors faults left) state = (.ok value, last) ↔
      faults.Works (.listBlobs ns) ∧
        (next (env.blobOrder state.tick (state.store.listBlobs ns))).run
          (faultyWorld env anchors faults left) (state.ticked 1) = (.ok value, last) :=
  run_ok_iff_of_reply (.listBlobs ns) question (fun _ => rfl) rfl

end Calls

/-! ## The guard -/

section Guard

variable {A : Type} {env : Environment} {anchors : AnchorModel A} {faults : Faults}
  {left : NamespaceId → BlobId → A → A} {state last : World A} {ns : NamespaceId}
  {token : CapabilityToken} {operation : Operation} {app : AppId}

/-- The guard works and lets the token pass. -/
structure Cleared (env : Environment) (faults : Faults) (state : World A) (ns : NamespaceId)
    (token : CapabilityToken) (operation : Operation) : Prop where
  verifierWorks : faults.Works (.verifySignature token)
  storeWorks : faults.Works (.getNamespace ns)
  verified : env.verify state.signed token = .ok ()
  authorized : token.authorize token.claims.appId ns operation (env.clock (state.tick + 1)) =
    .ok ()
  owner : ∃ owned, state.store.getNamespace ns = some owned ∧
    owned.ownedBy token.claims.appId = true

theorem authorize_run_ok_iff :
    (authorize ns token operation).run (faultyWorld env anchors faults left) state =
        (.ok app, last) ↔
      Cleared env faults state ns token operation ∧ token.claims.appId = app ∧
        state.ticked 3 = last := by
  unfold authorize
  simp only [verifySignature_run_ok_iff, now_run_ok_iff, run_done_bind_ok_iff,
    getNamespace_run_ok_iff, run_okOr_bind_ok_iff]
  constructor
  · rintro ⟨verifierWorks, verified, _, authorized, storeWorks, owned, found, ended⟩
    split at ended
    · next owns =>
        have clear : Cleared env faults state ns token operation := by
          refine ⟨verifierWorks, storeWorks, verified, ?_, owned, found, owns⟩
          cases scope : token.authorize token.claims.appId ns operation
              (env.clock (state.tick + 1)) with
          | ok _ => rfl
          | error error =>
              change fromDomain (token.authorize _ _ _ (env.clock (state.tick + 1))) = _
                at authorized
              rw [scope] at authorized
              cases authorized
        rcases Prod.mk.inj ended with ⟨sameApp, rfl⟩
        exact ⟨clear, Except.ok.inj sameApp, rfl⟩
    · cases (Prod.mk.inj ended).1
  · rintro ⟨cleared, sameApp, sameState⟩
    rcases cleared.owner with ⟨owned, found, owns⟩
    subst sameApp sameState
    refine ⟨cleared.verifierWorks, cleared.verified, (), ?_, cleared.storeWorks, owned, found, ?_⟩
    · change fromDomain (token.authorize _ _ _ (env.clock (state.tick + 1))) = _
      rw [cleared.authorized]
      rfl
    · rw [if_pos owns]
      rfl

end Guard

end VaultMesh
