import VaultMesh.Authority

/-!
# Tokens presented again

The nonce of a token is meant to be used once. The guard asks the verifier, the
clock and the store, and no request to the data plane changes what the verifier
or the store would answer: a token which was accepted is accepted again until it
expires. `single_use_iff` says this for every interleaving of requests.
-/

namespace VaultMesh

open Interaction

/-- A request to the data plane. -/
structure Presented where
  ns : NamespaceId
  token : CapabilityToken
  useCase : Guarded

namespace Presented

def guard (request : Presented) : UseCase AppId :=
  authorize request.ns request.token request.useCase.operation

def program (node : Node) (request : Presented) : UseCase Unit :=
  request.useCase.serve node request.ns request.token

/-- The exchanges which the request has made begin with an authorization which ended well. -/
def PassedGuard (request : Presented) (past : List PortExchange) : Prop :=
  ∃ front back app, past = front ++ back ∧ request.guard.Reaches front (.done (.ok app))

/-- The request has asked all that the guard asks, and this was the time it was told. -/
def Questioned (past : List PortExchange) (time : Timestamp) : Prop :=
  past[1]? = some ⟨.now, time⟩ ∧ 3 ≤ past.length

/-- At this time, the token is a valid one for the request. -/
structure Entitled {A : Type} (env : Environment) (state : World A) (request : Presented)
    (time : Timestamp) : Prop where
  signed : env.verify state.signed request.token = .ok ()
  unexpired : time.millis < request.token.claims.expiresAt.millis
  scope : request.token.claims.ns = request.ns ∧
    request.token.claims.operation = request.useCase.operation
  owner : ∃ owned, state.store.getNamespace request.ns = some owned ∧
    owned.ownedBy request.token.claims.appId = true

/-! ## The guard alone -/

/-- What the guard was told when it refused a request. -/
def Refused (request : Presented) (past : List PortExchange) : Prop :=
  (∃ error, ⟨.verifySignature request.token, .error error⟩ ∈ past) ∨
  (∃ time, past[1]? = some ⟨.now, time⟩ ∧
    request.token.authorize request.token.claims.appId request.ns request.useCase.operation time ≠
      .ok ()) ∨
  ∃ answer, (⟨.getNamespace request.ns, answer⟩ : PortExchange) ∈ past ∧
    ∀ owned, answer = .ok (some owned) → owned.ownedBy request.token.claims.appId ≠ true

/-- The guard makes three calls and refuses for a reason. -/
theorem guard_obeys (request : Presented) :
    request.guard.Obeys (fun past _ => past.length < 3) [] fun past result =>
      ∀ error, result = .error error → request.Refused past := by
  refine Program.Obeys.call_bind (by simp) ?_ ?_
  · intro answer error refused _ _
    cases answer with
    | ok _ => cases refused
    | error error => exact Or.inl ⟨error, by simp⟩
  intro _ _ _
  refine Program.Obeys.call_bind (by simp) (fun _ _ impossible => by cases impossible) ?_
  intro time time' wentTime
  rcases Except.ok.inj wentTime with rfl
  rw [Program.obeys_bind, Program.obeys_done]
  cases scope : request.token.authorize request.token.claims.appId request.ns
      request.useCase.operation time with
  | error error =>
      intro _ _
      exact Or.inr (Or.inl ⟨time, rfl, by simp [scope]⟩)
  | ok _ =>
      simp only [fromDomain, Program.thenObeys_ok]
      refine Program.Obeys.call_bind (by simp) ?_ ?_
      · intro answer error refused _ _
        refine Or.inr (Or.inr ⟨answer, by simp, ?_⟩)
        intro owned same
        rw [same] at refused
        cases refused
      intro answer found wentFound
      rcases question_eq_ok wentFound with rfl
      cases found with
      | none =>
          intro _ _
          refine Or.inr (Or.inr ⟨.ok none, by simp, ?_⟩)
          intro owned same
          cases same
      | some owned =>
          simp only [okOr_some, pure_bind]
          split
          · intro _ impossible
            cases impossible
          · next notOwned =>
              intro _ _
              refine Or.inr (Or.inr ⟨.ok (some owned), by simp, ?_⟩)
              intro other same
              rcases Option.some.inj (Except.ok.inj same) with rfl
              exact notOwned

theorem guard_accepts {request : Presented} {made : List PortExchange} {app : AppId}
    (reaches : request.guard.Reaches made (.done (.ok app))) :
    ∃ time owned, made = authorizing request.ns request.token time owned ∧
      request.token.authorize request.token.claims.appId request.ns request.useCase.operation
        time = .ok () ∧ owned.ownedBy request.token.claims.appId = true := by
  have obeys : request.guard.Obeys (fun _ _ => True) []
      (Authorized request.ns request.token request.useCase.operation []) :=
    authorize_obeys (fun _ _ _ => trivial) _ _ _ _
  rcases obeys.reaches reaches app rfl with ⟨rfl, time, owned, same, scope, owns⟩
  exact ⟨time, owned, by simpa using same, scope, owns⟩

/-! ## Runs -/

/-- The call leaves alone what the guard is told. -/
def Discreet : PortCall → Prop
  | .sign _ | .createNamespace _ => False
  | _ => True

theorem program_obeys (node : Node) (request : Presented) :
    (request.program node).Obeys (fun _ => Discreet) [] fun _ _ => True := by
  have reads : ∀ (_ : List PortExchange) call, ReadOnly call → Discreet call := by
    intro _ call readOnly
    cases call <;> first | exact trivial | exact readOnly.elim
  rcases request with ⟨ns, token, useCase⟩
  cases useCase with
  | put mesh ciphertext =>
      refine Program.Obeys.bind (((node.put mesh).execute_obeys ns token ciphertext).weaken ?_)
        (fun _ _ _ => trivial) fun _ _ _ => trivial
      intro past call permitted
      cases call <;> first | exact trivial | exact permitted.elim
  | get transport blobId =>
      refine Program.Obeys.bind
        (((node.get transport).restore_obeys permits_readOnly ns token blobId []).weaken reads)
        (fun _ _ _ => trivial) fun _ _ _ => trivial
  | list =>
      have lists : (ListBackups.execute ns token).Obeys (fun _ => Discreet) []
          fun _ _ => True := by
        refine (authorize_obeys (fun past call guardCall => ?_) ns token .list []).bind
          (fun _ _ _ => trivial) ?_
        · cases call <;> first | exact trivial | exact guardCall.elim
        · intro _ _ _
          exact ⟨trivial, fun _ => trivial⟩
      exact lists.bind (fun _ _ _ => trivial) fun _ _ _ => trivial
  | delete blobId =>
      refine ((DeleteBackup.execute_obeys ns token blobId).weaken ?_).conclude
        fun _ _ _ => trivial
      intro past call permitted
      cases call <;> first | exact trivial | exact permitted.elim

/-- Every answer which the guard gets is the one which the first state would give. -/
structure Told {A : Type} (env : Environment) (first state : World A) (trace : Trace) : Prop where
  namespaces : state.store.namespaces = first.store.namespaces
  signed : state.signed = first.signed
  verified : ∀ index token answer, (index, ⟨.verifySignature token, answer⟩) ∈ trace →
    answer = env.verify first.signed token
  owners : ∀ index ns answer, (index, ⟨.getNamespace ns, answer⟩) ∈ trace →
    answer = .ok (first.store.getNamespace ns)

section Runs

variable {A : Type} (node : Node) (env : Environment) (anchors : AnchorModel A)
  (requests : List Presented) (first : World A) (schedule : List ℕ)

variable {env anchors first} in
theorem Told.step {state : World A} {trace : Trace} (told : Told env first state trace)
    (index : ℕ) {call : PortCall} (discreet : Discreet call) :
    Told env first (state.after anchors call)
      (trace ++ [(index, ⟨call, state.reply env anchors call⟩)]) := by
  refine ⟨?_, ?_, ?_, ?_⟩
  · cases call <;> first | exact told.namespaces | exact discreet.elim
  · cases call <;> first | exact told.signed | exact discreet.elim
  · intro other token answer present
    rcases mem_trace_append present with before | ⟨-, -, answered⟩
    · exact told.verified other token answer before
    · rw [answered]
      exact congrArg (fun signed => env.verify signed token) told.signed
  · intro other ns answer present
    rcases mem_trace_append present with before | ⟨-, -, answered⟩
    · exact told.owners other ns answer before
    · rw [answered]
      exact congrArg (fun namespaces => Except.ok (namespaces.lookup ns)) told.namespaces

/-- The run of the requests, as far as the schedule goes. -/
def served : System ports Failure (World A) :=
  System.exec (world env anchors) (System.start first (requests.map (program node))) schedule

theorem told_served :
    Told env first (served node env anchors requests first schedule).state
      (served node env anchors requests first schedule).trace := by
  have obedient : System.Obedient (fun _ _ => Discreet)
      (System.start first (requests.map (program node)) : System ports Failure (World A)) := by
    apply System.obedient_start
    intro index program found
    rw [List.getElem?_map] at found
    rcases Option.map_eq_some_iff.mp found with ⟨request, -, rfl⟩
    exact request.program_obeys node
  refine (obedient.exec (⟨rfl, rfl, ?_, ?_⟩ : Told env first _ _) ?_ schedule).2
  · intro _ _ _ present
    cases present
  · intro _ _ _ present
    cases present
  · intro state trace index call _ told discreet
    exact told.step index discreet

/-- A request passes the guard exactly if it was entitled when it was served, whatever was served
before. -/
theorem passedGuard_iff {index : ℕ} {request : Presented}
    (listed : requests[index]? = some request) :
    request.PassedGuard (pastOf index (served node env anchors requests first schedule).trace) ↔
      ∃ time, Questioned (pastOf index (served node env anchors requests first schedule).trace)
        time ∧ request.Entitled env first time := by
  have told := told_served node env anchors requests first schedule
  have reached : ∃ rest,
      (served node env anchors requests first schedule).programs[index]? = some rest ∧
      (request.program node).Reaches
        (pastOf index (served node env anchors requests first schedule).trace) rest :=
    System.exec_reaches _ _ (by simp [listed]) schedule
  generalize served node env anchors requests first schedule = final at told reached
  rcases reached with ⟨rest, -, reaches⟩
  constructor
  · rintro ⟨front, back, app, split, accepted⟩
    rcases guard_accepts accepted with ⟨time, owned, rfl, scope, owns⟩
    have inTrace : ∀ made ∈ authorizing request.ns request.token time owned,
        (index, made) ∈ final.trace := by
      intro made present
      rw [← mem_pastOf, split]
      exact List.mem_append_left _ present
    rw [CapabilityToken.authorize_eq_ok_iff] at scope
    refine ⟨time, ⟨by simp [split, authorizing], by simp [split, authorizing]⟩, ?_, scope.1,
      scope.2.2, owned, ?_, owns⟩
    · exact (told.verified index _ _ (inTrace _ (by simp [authorizing]))).symm
    · have answered := told.owners index _ _ (inTrace ⟨.getNamespace request.ns, .ok (some owned)⟩
        (by simp [authorizing]))
      exact (Except.ok.inj answered).symm
  · rintro ⟨time, ⟨clock, long⟩, entitled⟩
    rcases Guarded.exists_serve_eq node request.ns request.token request.useCase with ⟨next, split⟩
    have guarded : (request.guard >>= next).Reaches (pastOf index final.trace) rest := by
      rw [guard, ← split]
      exact reaches
    rcases guarded.bind_cases with
      ⟨call, later, inside, -⟩ | ⟨error, refused, -⟩ | ⟨front, back, app, split, accepted, -⟩
    · have short := (request.guard_obeys.reaches inside).1
      simp only [List.nil_append] at short
      omega
    · exfalso
      have reason := request.guard_obeys.reaches refused error rfl
      rw [List.nil_append] at reason
      rcases reason with ⟨error, invalid⟩ | ⟨time', clock', outside⟩ | ⟨answer, asked, notOwned⟩
      · have answered := told.verified index _ _ (mem_pastOf.mp invalid)
        rw [entitled.signed] at answered
        cases answered
      · rw [clock] at clock'
        have sameTime : time = time' := by simpa using clock'
        subst sameTime
        apply outside
        rw [CapabilityToken.authorize_eq_ok_iff]
        exact ⟨entitled.unexpired, rfl, entitled.scope⟩
      · have answered := told.owners index _ _ (mem_pastOf.mp asked)
        rcases entitled.owner with ⟨owned, known, owns⟩
        rw [known] at answered
        exact notOwned owned answered owns
    · exact ⟨front, back, app, split, accepted⟩

/-- Every nonce got past the guard at most once. -/
def SingleUse (trace : Trace) : Prop :=
  ∀ (index other : ℕ) (request again : Presented), requests[index]? = some request →
    requests[other]? = some again → request.token.claims.nonce = again.token.claims.nonce →
    request.PassedGuard (pastOf index trace) → again.PassedGuard (pastOf other trace) →
    index = other

/-- No two requests with one nonce were served while their tokens were valid. -/
def Unrepeated (trace : Trace) : Prop :=
  ∀ (index other : ℕ) (request again : Presented) (time later : Timestamp),
    requests[index]? = some request → requests[other]? = some again →
    request.token.claims.nonce = again.token.claims.nonce →
    Questioned (pastOf index trace) time → Questioned (pastOf other trace) later →
    request.Entitled env first time → again.Entitled env first later → index = other

/--
In every interleaving of requests to the data plane, every nonce gets past the
guard at most once exactly if no two requests with one nonce are both served
while their tokens are valid: signed, unexpired, in scope and the owner's.
-/
theorem single_use_iff :
    SingleUse requests (served node env anchors requests first schedule).trace ↔
      Unrepeated env requests first (served node env anchors requests first schedule).trace := by
  have passes {index : ℕ} {request : Presented} (listed : requests[index]? = some request) :=
    passedGuard_iff node env anchors requests first schedule listed
  constructor
  · intro once index other request again time later listed listedToo same questioned questionedToo
      entitled entitledToo
    exact once index other request again listed listedToo same
      ((passes listed).mpr ⟨time, questioned, entitled⟩)
      ((passes listedToo).mpr ⟨later, questionedToo, entitledToo⟩)
  · intro once index other request again listed listedToo same passed passedToo
    rcases (passes listed).mp passed with ⟨time, questioned, entitled⟩
    rcases (passes listedToo).mp passedToo with ⟨later, questionedToo, entitledToo⟩
    exact once index other request again time later listed listedToo same questioned questionedToo
      entitled entitledToo

end Runs

def sampleGet : Presented :=
  ⟨⟨"ns-1"⟩, sampleToken .get, .get false ⟨"blob-5"⟩⟩

def emptyStart : World ShardMap :=
  ⟨sampleStore ⟨10, 10⟩ ⟨0, 0⟩, fun _ => none, [], 0⟩

/-- The same token for two restores, one after the other. -/
def repeatedGets : System ports Failure (World ShardMap) :=
  served replicatingNode sampleEnvironment shardMap [sampleGet, sampleGet] emptyStart
    [0, 0, 0, 0, 1, 1, 1, 1]

theorem single_use_fails :
    sampleGet.PassedGuard (pastOf 0 repeatedGets.trace) ∧
      sampleGet.PassedGuard (pastOf 1 repeatedGets.trace) ∧
        ¬SingleUse [sampleGet, sampleGet] repeatedGets.trace := by
  have entitled : Entitled sampleEnvironment emptyStart sampleGet ⟨1000⟩ :=
    ⟨rfl, by decide, by decide, ⟨⟨"ns-1"⟩, ⟨"app-1"⟩⟩, rfl, by decide⟩
  have lengths : (pastOf 0 repeatedGets.trace).length = 4 ∧
      (pastOf 1 repeatedGets.trace).length = 4 := ⟨rfl, rfl⟩
  have passed : sampleGet.PassedGuard (pastOf 0 repeatedGets.trace) := by
    apply (passedGuard_iff _ _ _ [sampleGet, sampleGet] emptyStart _ rfl).mpr
    exact ⟨⟨1000⟩, ⟨rfl, by change 3 ≤ (pastOf 0 repeatedGets.trace).length; omega⟩, entitled⟩
  have passedAgain : sampleGet.PassedGuard (pastOf 1 repeatedGets.trace) := by
    apply (passedGuard_iff _ _ _ [sampleGet, sampleGet] emptyStart _ rfl).mpr
    exact ⟨⟨1000⟩, ⟨rfl, by change 3 ≤ (pastOf 1 repeatedGets.trace).length; omega⟩, entitled⟩
  refine ⟨passed, passedAgain, ?_⟩
  intro once
  exact absurd (once 0 1 sampleGet sampleGet rfl rfl rfl passed passedAgain) (by decide)

end Presented

end VaultMesh
