import VaultMesh.PresignedAnchor
import VaultMesh.RemoteRefinement

/-!
# An anchor behind presigned URLs is the object store

In every interleaving of the requests which nodes send for their anchor, each
anchor call takes place as a whole at the last of its requests, as if the node
had the object store itself. The calls which fail are those whose request met
with an outage, whose URL came too late, or which one of the two services
refused.
-/

namespace VaultMesh

open Interaction Files Coding Coding.Serde Coding.Urls

/-! ## Anchors which fail at times -/

/-- A call of the anchor which is heard to fail; it may have been done all the same. -/
structure Lapse where
  error : PortError
  done : Bool
  deriving DecidableEq

def PortCall.isAnchor : PortCall → Bool
  | .putShard _ _ | .getShard _ | .deleteBlob _ _ => true
  | _ => false

/-- What a call of the anchor comes to, if it lapses. -/
def lapsed {A : Type} (env : Environment) (anchors : AnchorModel A) (state : World A)
    (call : PortCall) : Option Lapse → call.Answer × World A
  | none => (world env anchors).answer state call
  | some lapse =>
      match call.isAnchor, call.failed lapse.error with
      | true, some answer =>
          (answer, if lapse.done then state.after anchors call else state.waited)
      | _, _ => (world env anchors).answer state call

/-- A world in which calls of the anchor fail at some times. -/
def lapsingWorld {A : Type} (env : Environment) (anchors : AnchorModel A)
    (lapses : ℕ → Option Lapse) : Handler ports (World A) where
  answer state call := lapsed env anchors state call (lapses state.tick)

/-- What is asked of the store with a URL. -/
def PresignOp.request : PresignOp → ObjectKey → ObjectRequest
  | .put, key => .put key
  | .get, key => .get key

namespace Parties

variable (self : Parties) (env : Environment)

def agent : PresignedBlobAnchor :=
  ⟨self.server.words⟩

/-- The request is served, whether or not this is heard. -/
def arrives (tick : ℕ) : Bool :=
  match self.outages tick with
  | none | some (.lost _) => true
  | _ => false

/-- The request asks for a change, or for bytes, and its reader lets it. -/
def admits (tick : ℕ) : AnchorCall → Bool
  | .presign _ => false
  | .deleteBlob body => decide ((utf8 body).length ≤ bodyLimit)
  | .upload url _ =>
      (self.presigner.urls.opens .put url (env.clock tick).seconds).isSome
  | .download url =>
      (self.presigner.urls.opens .get url (env.clock tick).seconds).isSome

def takesPlace (tick : ℕ) (call : AnchorCall) : Bool :=
  self.arrives tick && self.admits env tick call

/-- The error which a node takes the answer for. -/
def errorOf : (call : AnchorCall) → Except String call.Reply → Option PortError
  | .presign _, answer => failure (self.agent.urlOf answer)
  | .deleteBlob _, answer => failure (self.agent.deleted answer)
  | .upload _ _, answer => failure (self.agent.uploaded answer)
  | .download _, answer => failure (self.agent.downloaded answer)
where
  failure {α : Type} : PortResult α → Option PortError
    | .ok _ => none
    | .error error => some error

/-- That a shard is missing is no lapse. -/
def lapse (tick : ℕ) (call : AnchorCall) (answer : Except String call.Reply) : Option Lapse :=
  match self.errorOf call answer with
  | none => none
  | some error =>
      if error = .notFound ∧ (self.outages tick).isNone ∧ self.takesPlace env tick call then
        none
      else
        some ⟨error, self.takesPlace env tick call⟩

/-- The lapses in a run which began at the time `first`. -/
def lapses (first : ℕ) (events : NodeTrace) (tick : ℕ) : Option Lapse :=
  if first ≤ tick then
    match events[tick - first]? with
    | some (_, ⟨.anchor call, answer⟩) => self.lapse env tick call answer
    | _ => none
  else
    none

/-- A URL signed at the one time is out of its time at the other. -/
def Late (issued tick : ℕ) : Prop :=
  ¬((env.clock issued).seconds ≤ (env.clock tick).seconds ∧
    (env.clock tick).seconds ≤ (env.clock issued).seconds + ttlSecs.toNat)

/-- The object store refuses the request. -/
def Refuses (request : ObjectRequest) : Prop :=
  ∃ reason, self.presigner.anchor.service.refusal request = some reason

/-- The URL was signed for the shard at this time. -/
def Signed (ref : ShardRef) (op : PresignOp) (issued : ℕ) (url : String) : Prop :=
  self.presigner.urls.sign op.method (self.presigner.anchor.shardKey ref)
    (env.clock issued).seconds ttlSecs.toNat = .ok url

/-- The node was told the URL at the place `asked` of the run, where it was signed. -/
structure Told (first : ℕ) (events : NodeTrace) (asked index : ℕ) (ref : ShardRef)
    (op : PresignOp) (url : String) : Prop where
  heard : ∃ answer, events[asked]? =
    some (index, ⟨.anchor (.presign (self.agent.presignBody ref op)), answer⟩) ∧
      self.agent.urlOf answer = .ok url
  signed : self.Signed env ref op (first + asked) url

/-- The node was told the URL before, which is out of its time now, or the store refuses what it
stands for. -/
def Spent (first : ℕ) (events : NodeTrace) (place index : ℕ) (op : PresignOp) (url : String) :
    Prop :=
  ∃ ref, ∃ asked < place, self.Told env first events asked index ref op url ∧
    (Late env (first + asked) (first + place) ∨
      self.Refuses (op.request (self.presigner.anchor.shardKey ref)))

/-- Why the anchor may fail. -/
def Hindered (first : ℕ) (events : NodeTrace) (place index : ℕ) (call : AnchorCall) : Prop :=
  (self.outages (first + place)).isSome = true ∨
    match call with
    | .presign body => ∃ ref op, body = self.agent.presignBody ref op ∧
        (bodyLimit < (utf8 body).length ∨
          ∃ reason, self.presigner.urls.sign op.method (self.presigner.anchor.shardKey ref)
            (env.clock (first + place)).seconds ttlSecs.toNat = .error reason)
    | .deleteBlob body => ∃ ns blobId, body = self.agent.deleteBody ns blobId ∧
        (bodyLimit < (utf8 body).length ∨
          ∃ request, self.presigner.anchor.Removes ns blobId request ∧ self.Refuses request)
    | .upload url _ => self.Spent env first events place index .put url
    | .download url => self.Spent env first events place index .get url

end Parties

/-! ## The coordinator -/

section Requests

variable {parties : Parties} {env : Environment} {state : World Bucket} {ref : ShardRef}
  {op : PresignOp}

theorem dispatch_presign (matching : Matching) :
    dispatch matching routes .post (matching.parsePath "/v1/anchor/presign") = .ok .presign := by
  rw [matching.parsePath_of_words ["v1", "anchor", "presign"] (by decide) (by decide) (by decide)]
  rfl

theorem dispatch_deleteBlob (matching : Matching) :
    dispatch matching routes .post (matching.parsePath "/v1/anchor/delete-blob") =
      .ok .deleteBlob := by
  rw [matching.parsePath_of_words ["v1", "anchor", "delete-blob"] (by decide) (by decide)
    (by decide)]
  rfl

namespace Parties

/-- A URL for the shard, or why there is none. -/
def signed (self : Parties) (env : Environment) (ref : ShardRef) (op : PresignOp) (tick : ℕ) :
    Except ApiError PresignResponse :=
  match self.presigner.presign op.method ref ttlSecs (env.clock tick) with
  | .ok url => .ok ⟨url, ttlSecs⟩
  | .error error => .error (err error)

theorem presign_run (ref : ShardRef) (op : PresignOp) (state : World Bucket) :
    (mapErr (Coordinator.presign (some parties.presigner) ⟨ref.ns, ref.blobId, ref.index, op⟩)).run
        (world env parties.presigner.anchor.model) state =
      (.ok (parties.signed env ref op state.tick), state.waited) := by
  have ran : (Coordinator.presign (some parties.presigner)
      ⟨ref.ns, ref.blobId, ref.index, op⟩).run (world env parties.presigner.anchor.model) state =
        ((question (parties.presigner.presign op.method ref ttlSecs (env.clock state.tick))).map
          fun url => ⟨url, ttlSecs⟩, state.waited) :=
    Program.run_bind_pure _ _ _
  rw [mapErr_run, ran, signed]
  cases parties.presigner.presign op.method ref ttlSecs (env.clock state.tick) <;> rfl

theorem deleteAnchored_run (ns : NamespaceId) (blobId : BlobId) (state : World Bucket) :
    (mapErr (Coordinator.deleteAnchored (some parties.presigner) ⟨ns, blobId⟩)).run
        (world env parties.presigner.anchor.model) state =
      (returned (question (parties.presigner.anchor.deleteBlob state.anchor ns blobId).1),
        state.after parties.presigner.anchor.model (.deleteBlob ns blobId)) := by
  rw [mapErr_run]
  rfl

theorem ask_of_run {path body : String} {resp : Response} (last : World Bucket)
    (ran : (parties.coordinator.respond parties.matching .post path body).run
      (world env parties.presigner.anchor.model) state = (.ok resp, last)) :
    parties.ask env path body state = (.ok resp, { last with tick := state.tick + 1 }) := by
  simp only [ask, ran]

/-- A request which is refused leaves everything as it is. -/
theorem ask_of_pure {path body : String} {resp : Response}
    (responded : parties.coordinator.respond parties.matching .post path body = pure resp) :
    parties.ask env path body state = (.ok resp, state.waited) := by
  apply ask_of_run state
  rw [responded]
  rfl

theorem ask_of_presign {path body : String} (req : PresignRequest)
    (responded : parties.coordinator.respond parties.matching .post path body = do
      return jsonResponse parties.server.words
        (← mapErr (Coordinator.presign (some parties.presigner) req))) :
    parties.ask env path body state =
      (.ok (jsonResponse parties.server.words
        (parties.signed env ⟨req.ns, req.blobId, req.index⟩ req.op state.tick)), state.waited) := by
  apply ask_of_run state.waited
  have ran : (mapErr (Coordinator.presign (some parties.presigner) req)).run
      (world env parties.presigner.anchor.model) state = _ :=
    presign_run ⟨req.ns, req.blobId, req.index⟩ req.op state
  rw [responded, Program.run_bind_pure, ran]
  rfl

theorem ask_of_deleteAnchored {path body : String} (req : DeleteBlobRequest)
    (responded : parties.coordinator.respond parties.matching .post path body = do
      return emptyResponse parties.server.words
        (← mapErr (Coordinator.deleteAnchored (some parties.presigner) req))) :
    parties.ask env path body state =
      (.ok (emptyResponse parties.server.words
          ((parties.presigner.anchor.deleteBlob state.anchor req.ns req.blobId).1.mapError err)),
        state.after parties.presigner.anchor.model (.deleteBlob req.ns req.blobId)) := by
  apply ask_of_run (state.after parties.presigner.anchor.model (.deleteBlob req.ns req.blobId))
  have ran : (mapErr (Coordinator.deleteAnchored (some parties.presigner) req)).run
      (world env parties.presigner.anchor.model) state = _ :=
    deleteAnchored_run req.ns req.blobId state
  rw [responded, Program.run_bind_pure, ran]
  cases (parties.presigner.anchor.deleteBlob state.anchor req.ns req.blobId).1 <;> rfl

/-- A request to an endpoint which takes a body is posted to it. -/
theorem respond_eq_post {path : String} {endpoint : Endpoint}
    (admitted : parties.server.blocked = false)
    (dispatched : dispatch parties.matching routes .post (parties.matching.parsePath path) =
      .ok endpoint)
    (posts : ∀ body, parties.coordinator.serve body endpoint =
      parties.coordinator.post endpoint body) (body : String) :
    parties.coordinator.respond parties.matching .post path body =
      parties.coordinator.post endpoint body := by
  rw [Coordinator.respond, dispatched,
    if_neg (by simp [coordinator, Coordinator.anchoring, admitted])]
  exact posts body

/-- A body with the fields of the endpoint goes to its handler, unless it is too long. -/
theorem post_record {endpoint : Endpoint} {ρ : Type} [Serde ρ] {req : ρ} {values : List Json}
    {handler : ρ → UseCase Response}
    (accepted : ∀ json, parties.coordinator.accepted endpoint json =
      parties.server.acceptBody json handler)
    (fields : entries endpoint.bodyFields (toJson req) = some (values.map some)) :
    parties.coordinator.post endpoint (parties.agent.words.toText (toJson req)) =
      if bodyLimit < (utf8 (parties.agent.words.toText (toJson req))).length then
        pure ⟨413, parties.server.words.rejection (parties.agent.words.toText (toJson req))⟩
      else
        handler req := by
  rw [Coordinator.post]
  split
  · rfl
  · rw [show parties.coordinator.words = parties.agent.words from rfl,
      parties.agent.words.parseFront_toText]
    dsimp only
    rw [fields]
    dsimp only
    rw [accepted, Coordinator.acceptBody, fromJson_toJson]

/-- The coordinator signs a URL for the shard, unless its address is too long to be read. -/
theorem ask_presign (admitted : parties.server.blocked = false) (ref : ShardRef) (op : PresignOp)
    (state : World Bucket) :
    parties.ask env "/v1/anchor/presign" (parties.agent.presignBody ref op) state =
      (.ok (if bodyLimit < (utf8 (parties.agent.presignBody ref op)).length then
          ⟨413, parties.server.words.rejection (parties.agent.presignBody ref op)⟩
        else
          jsonResponse parties.server.words (parties.signed env ref op state.tick)),
        state.waited) := by
  have fields : entries Endpoint.presign.bodyFields
      (toJson (⟨ref.ns, ref.blobId, ref.index, op⟩ : PresignRequest)) =
        some ([toJson ref.ns, toJson ref.blobId, toJson ref.index, toJson op].map some) :=
    entries_record (by decide) rfl
  have accepted : ∀ json, parties.coordinator.accepted .presign json =
      parties.server.acceptBody json fun req => do
        return jsonResponse parties.server.words
          (← mapErr (Coordinator.presign (some parties.presigner) req)) :=
    fun _ => rfl
  have served := respond_eq_post admitted (dispatch_presign parties.matching) (fun _ => rfl)
    (parties.agent.presignBody ref op)
  rw [PresignedBlobAnchor.presignBody] at served ⊢
  rw [post_record accepted fields] at served
  generalize parties.agent.words.toText
    (toJson (⟨ref.ns, ref.blobId, ref.index, op⟩ : PresignRequest)) = text
    at served ⊢
  by_cases long : bodyLimit < (utf8 text).length
  · rw [if_pos long] at served ⊢
    exact ask_of_pure served
  · rw [if_neg long] at served ⊢
    exact ask_of_presign ⟨ref.ns, ref.blobId, ref.index, op⟩ served

/-- The coordinator deletes the objects of the blob, unless its address is too long to be
read. -/
theorem ask_deleteBlob (admitted : parties.server.blocked = false) (ns : NamespaceId)
    (blobId : BlobId) (state : World Bucket) :
    parties.ask env "/v1/anchor/delete-blob" (parties.agent.deleteBody ns blobId) state =
      if bodyLimit < (utf8 (parties.agent.deleteBody ns blobId)).length then
        (.ok ⟨413, parties.server.words.rejection (parties.agent.deleteBody ns blobId)⟩,
          state.waited)
      else
        (.ok (emptyResponse parties.server.words
            ((parties.presigner.anchor.deleteBlob state.anchor ns blobId).1.mapError err)),
          state.after parties.presigner.anchor.model (.deleteBlob ns blobId)) := by
  have fields : entries Endpoint.deleteBlob.bodyFields
      (toJson (⟨ns, blobId⟩ : DeleteBlobRequest)) =
        some ([toJson ns, toJson blobId].map some) :=
    entries_record (by decide) rfl
  have accepted : ∀ json, parties.coordinator.accepted .deleteBlob json =
      parties.server.acceptBody json fun req => do
        return emptyResponse parties.server.words
          (← mapErr (Coordinator.deleteAnchored (some parties.presigner) req)) :=
    fun _ => rfl
  have served := respond_eq_post admitted (dispatch_deleteBlob parties.matching) (fun _ => rfl)
    (parties.agent.deleteBody ns blobId)
  rw [PresignedBlobAnchor.deleteBody] at served ⊢
  rw [post_record accepted fields] at served
  generalize parties.agent.words.toText (toJson (⟨ns, blobId⟩ : DeleteBlobRequest)) = text
    at served ⊢
  by_cases long : bodyLimit < (utf8 text).length
  · rw [if_pos long] at served ⊢
    exact ask_of_pure served
  · rw [if_neg long] at served ⊢
    exact ask_of_deleteAnchored ⟨ns, blobId⟩ served

/-! ## Asking for a URL -/

theorem lapse_of_error {call : AnchorCall} {tick : ℕ} {answer : Except String call.Reply}
    {error : PortError} (failed : parties.errorOf call answer = some error)
    (other : error ≠ .notFound) :
    parties.lapse env tick call answer = some ⟨error, parties.takesPlace env tick call⟩ := by
  simp [lapse, failed, other]

theorem lapse_of_ok {call : AnchorCall} {tick : ℕ} {answer : Except String call.Reply}
    (went : parties.errorOf call answer = none) : parties.lapse env tick call answer = none := by
  simp [lapse, went]

theorem urlOf_of_failed {resp : Response} (failed : resp.isSuccess = false) :
    parties.agent.urlOf (.ok resp) = .error (.backend
      ("coordinator presign returned " ++ parties.server.words.status resp.status)) := by
  simp [PresignedBlobAnchor.urlOf, failed, agent]

theorem urlOf_reply (reply : PresignResponse) :
    parties.agent.urlOf (.ok (jsonResponse parties.server.words (.ok reply))) = .ok reply.url := by
  simp [jsonResponse, PresignedBlobAnchor.urlOf, Response.isSuccess, agent]

/-- A request which takes place has its effect, heard or not. -/
theorem met_snd {call : AnchorCall} (after : World Bucket)
    (served : (parties.serve env call state).2 =
      if parties.admits env state.tick call then after else state.waited) :
    (parties.met env call state (parties.outages state.tick)).2 =
      if parties.takesPlace env state.tick call then after else state.waited := by
  rw [takesPlace, arrives]
  cases struck : parties.outages state.tick with
  | none => simpa [met] using served
  | some outage =>
      cases outage with
      | lost reason => simpa [met] using served
      | refused status failed => simp [met]
      | unreached reason => simp [met]

/-- Without an outage, what is heard is what was served. -/
theorem met_fst (call : AnchorCall) :
    (parties.outages state.tick = none ∧
      (parties.met env call state (parties.outages state.tick)).1 =
        (parties.serve env call state).1) ∨
    (parties.outages state.tick).isSome ∧
      ((∃ reason, (parties.met env call state (parties.outages state.tick)).1 = .error reason) ∨
        ∃ status, PresignedBlobAnchor.isSuccess status = false ∧
          (parties.met env call state (parties.outages state.tick)).1 =
            .ok (refusal status call)) := by
  cases struck : parties.outages state.tick with
  | none => exact Or.inl ⟨rfl, rfl⟩
  | some outage =>
      right
      refine ⟨rfl, ?_⟩
      cases outage with
      | lost reason => exact Or.inl ⟨reason, rfl⟩
      | refused status failed => exact Or.inr ⟨status, failed, rfl⟩
      | unreached reason => exact Or.inl ⟨reason, rfl⟩

theorem signed_eq_ok {reply : PresignResponse} {tick : ℕ}
    (told : parties.signed env ref op tick = .ok reply) :
    parties.Signed env ref op tick reply.url := by
  rw [signed, RustFsPresigner.presign] at told
  rw [Signed]
  cases result : parties.presigner.urls.sign op.method (parties.presigner.anchor.shardKey ref)
      (env.clock tick).seconds ttlSecs.toNat with
  | error reason =>
      rw [result] at told
      cases told
  | ok url =>
      rw [result] at told
      rcases Except.ok.inj told with rfl
      rfl

theorem signed_eq_error {error : ApiError} {tick : ℕ}
    (refused : parties.signed env ref op tick = .error error) :
    ∃ reason, parties.presigner.urls.sign op.method (parties.presigner.anchor.shardKey ref)
      (env.clock tick).seconds ttlSecs.toNat = .error reason ∧
        error = err (RustFsBlobAnchor.backend reason) := by
  rw [signed, RustFsPresigner.presign] at refused
  cases result : parties.presigner.urls.sign op.method (parties.presigner.anchor.shardKey ref)
      (env.clock tick).seconds ttlSecs.toNat with
  | error reason =>
      rw [result] at refused
      exact ⟨reason, rfl, (Except.error.inj refused).symm⟩
  | ok url =>
      rw [result] at refused
      cases refused

theorem lapse_presign {body : String} {tick : ℕ} {answer : Except String Response}
    {error : PortError} (failed : parties.agent.urlOf answer = .error error) :
    parties.lapse env tick (.presign body) answer = some ⟨error, false⟩ := by
  simp [lapse, errorOf, errorOf.failure, failed, takesPlace, admits]

theorem lapse_presign_of_ok {body : String} {tick : ℕ} {answer : Except String Response}
    {url : String} (told : parties.agent.urlOf answer = .ok url) :
    parties.lapse env tick (.presign body) answer = none := by
  simp [lapse, errorOf, errorOf.failure, told]

/-- A URL told is signed for the shard at this time, and without a URL there is a reason. -/
theorem presign_told (admitted : parties.server.blocked = false) (ref : ShardRef) (op : PresignOp)
    (state : World Bucket) :
    (∃ url, parties.agent.urlOf (parties.met env
          (.presign (parties.agent.presignBody ref op)) state
          (parties.outages state.tick)).1 = .ok url ∧
        parties.Signed env ref op state.tick url) ∨
      ∃ error, parties.agent.urlOf (parties.met env
          (.presign (parties.agent.presignBody ref op)) state
          (parties.outages state.tick)).1 = .error error ∧ error ≠ .notFound ∧
        ((parties.outages state.tick).isSome = true ∨
          bodyLimit < (utf8 (parties.agent.presignBody ref op)).length ∨
            ∃ reason, parties.presigner.urls.sign op.method
              (parties.presigner.anchor.shardKey ref) (env.clock state.tick).seconds
                ttlSecs.toNat = .error reason) := by
  rcases met_fst (.presign (parties.agent.presignBody ref op)) with
    ⟨-, heard⟩ | ⟨struck, ⟨reason, heard⟩ | ⟨status, failed, heard⟩⟩
  · rw [heard, serve, ask_presign admitted]
    dsimp only
    split
    · next long =>
        exact Or.inr ⟨_, urlOf_of_failed rfl, by rintro ⟨⟩, Or.inr (Or.inl long)⟩
    · cases told : parties.signed env ref op state.tick with
      | ok reply => exact Or.inl ⟨reply.url, urlOf_reply reply, signed_eq_ok told⟩
      | error error =>
          rcases signed_eq_error told with ⟨reason, unsigned, rfl⟩
          exact Or.inr ⟨_, urlOf_of_failed (err_not_success _ _), by rintro ⟨⟩,
            Or.inr (Or.inr ⟨reason, unsigned⟩)⟩
  · rw [heard]
    exact Or.inr ⟨_, rfl, by rintro ⟨⟩, Or.inl struck⟩
  · rw [heard]
    exact Or.inr ⟨_, urlOf_of_failed failed, by rintro ⟨⟩, Or.inl struck⟩

theorem presign_snd (admitted : parties.server.blocked = false) (ref : ShardRef) (op : PresignOp)
    (state : World Bucket) :
    (parties.met env (.presign (parties.agent.presignBody ref op)) state
      (parties.outages state.tick)).2 = state.waited := by
  have waited : (parties.serve env (.presign (parties.agent.presignBody ref op)) state).2 =
      state.waited := by
    rw [serve, ask_presign admitted]
  rw [met_snd state.waited (by rw [waited, ite_self]), ite_self]

/-! ## Using it -/

theorem Signed.late {issued tick : ℕ} {url : String} (signed : parties.Signed env ref op issued url)
    (shut : parties.presigner.urls.opens op.method url (env.clock tick).seconds = none) :
    Late env issued tick :=
  SignedUrls.late_of_opens_none signed shut

theorem Signed.key {issued now : ℕ} {url : String} {key : ObjectKey}
    (signed : parties.Signed env ref op issued url)
    (opened : parties.presigner.urls.opens op.method url now = some key) :
    key = parties.presigner.anchor.shardKey ref :=
  SignedUrls.key_of_opens signed opened

theorem uploaded_of_failed {status : ℕ} (failed : PresignedBlobAnchor.isSuccess status = false) :
    parties.agent.uploaded (.ok status) =
      .error (.backend ("store put " ++ parties.server.words.status status)) := by
  simp [PresignedBlobAnchor.uploaded, failed, agent]

/-- Through its URL, the store keeps the shard; or there is a reason why not. -/
theorem store_cases {issued : ℕ} {url : String}
    (signed : parties.Signed env ref .put issued url) (bytes : Bytes) :
    (parties.store env url bytes state = (.ok 403, state.waited) ∧
        parties.admits env state.tick (.upload url bytes) = false ∧ Late env issued state.tick) ∨
      parties.admits env state.tick (.upload url bytes) = true ∧
        (parties.store env url bytes state).2 =
          state.after parties.presigner.anchor.model (.putShard ref bytes) ∧
        ((parties.store env url bytes state).1 = .ok 200 ∧
            (parties.presigner.anchor.putShard state.anchor ref bytes).1 = .ok () ∨
          (parties.store env url bytes state).1 = .ok 500 ∧ 
            parties.Refuses (.put (parties.presigner.anchor.shardKey ref))) := by
  rw [store, admits]
  cases opened : parties.presigner.urls.opens .put url (env.clock state.tick).seconds with
  | none => exact Or.inl ⟨rfl, rfl, Signed.late signed opened⟩
  | some key =>
      right
      rcases Signed.key signed opened with rfl
      refine ⟨rfl, ?_⟩
      simp only [World.after, AnchorModel.after, RustFsBlobAnchor.model,
        RustFsBlobAnchor.putShard, ObjectService.put]
      cases refusal : parties.presigner.anchor.service.refusal
          (.put (parties.presigner.anchor.shardKey ref)) with
      | none => exact ⟨rfl, Or.inl ⟨rfl, rfl⟩⟩
      | some reason => exact ⟨rfl, Or.inr ⟨rfl, reason, refusal⟩⟩

theorem upload_snd {issued : ℕ} {url : String}
    (signed : parties.Signed env ref .put issued url) (bytes : Bytes) :
    (parties.met env (.upload url bytes) state (parties.outages state.tick)).2 =
      if parties.takesPlace env state.tick (.upload url bytes) then
        state.after parties.presigner.anchor.model (.putShard ref bytes)
      else
        state.waited := by
  apply met_snd
  rcases store_cases signed bytes with ⟨served, shut, -⟩ | ⟨opened, done, -⟩
  · rw [serve, served, shut]
    rfl
  · rw [serve, done, opened]
    rfl

theorem upload_told {issued : ℕ} {url : String}
    (signed : parties.Signed env ref .put issued url) (bytes : Bytes) :
    (parties.agent.uploaded
          (parties.met env (.upload url bytes) state (parties.outages state.tick)).1 = .ok () ∧
        parties.takesPlace env state.tick (.upload url bytes) = true ∧
        (parties.presigner.anchor.putShard state.anchor ref bytes).1 = .ok ()) ∨
      ∃ error, parties.agent.uploaded
          (parties.met env (.upload url bytes) state (parties.outages state.tick)).1 =
            .error error ∧ error ≠ .notFound ∧
        ((parties.outages state.tick).isSome = true ∨ Late env issued state.tick ∨
          parties.Refuses (.put (parties.presigner.anchor.shardKey ref))) := by
  rcases met_fst (.upload url bytes) with
    ⟨calm, heard⟩ | ⟨struck, ⟨reason, heard⟩ | ⟨status, failed, heard⟩⟩
  · rw [heard, serve]
    rcases store_cases signed bytes with
      ⟨served, shut, late⟩ | ⟨opened, done, ⟨answered, put⟩ | ⟨answered, refuses⟩⟩
    · rw [served]
      exact Or.inr ⟨_, uploaded_of_failed rfl, by rintro ⟨⟩, Or.inr (Or.inl late)⟩
    · rw [answered]
      exact Or.inl ⟨rfl, by simp [takesPlace, arrives, calm, opened], put⟩
    · rw [answered]
      exact Or.inr ⟨_, uploaded_of_failed rfl, by rintro ⟨⟩, Or.inr (Or.inr refuses)⟩
  · rw [heard]
    exact Or.inr ⟨_, rfl, by rintro ⟨⟩, Or.inl struck⟩
  · rw [heard]
    exact Or.inr ⟨_, uploaded_of_failed failed, by rintro ⟨⟩, Or.inl struck⟩

/-- An upload through a URL for the shard is the call of the anchor, or lapses. -/
theorem upload_lapsed {issued : ℕ} {url : String}
    (signed : parties.Signed env ref .put issued url) (bytes : Bytes) :
    lapsed env parties.presigner.anchor.model state (.putShard ref bytes)
        (parties.lapse env state.tick (.upload url bytes)
          (parties.met env (.upload url bytes) state (parties.outages state.tick)).1) =
      (parties.agent.uploaded
          (parties.met env (.upload url bytes) state (parties.outages state.tick)).1,
        (parties.met env (.upload url bytes) state (parties.outages state.tick)).2) ∧
    ((parties.lapse env state.tick (.upload url bytes)
        (parties.met env (.upload url bytes) state (parties.outages state.tick)).1).isSome →
      ((parties.outages state.tick).isSome = true ∨ Late env issued state.tick ∨
          parties.Refuses (.put (parties.presigner.anchor.shardKey ref)))) := by
  rw [upload_snd signed bytes]
  rcases upload_told signed bytes with ⟨went, placed, put⟩ | ⟨error, failed, other, hindered⟩
  · rw [went, lapse_of_ok (by simp [errorOf, errorOf.failure, went]), if_pos placed, ← put]
    exact ⟨rfl, by rintro ⟨⟩⟩
  · rw [failed, lapse_of_error (by simp [errorOf, errorOf.failure, failed]) other]
    exact ⟨rfl, fun _ => hindered⟩

/-! ## Reading -/

theorem downloaded_of_failed {status : ℕ} {bytes : Bytes}
    (failed : PresignedBlobAnchor.isSuccess status = false) :
    ∃ error, parties.agent.downloaded (.ok (status, bytes)) = .error error := by
  simp only [PresignedBlobAnchor.downloaded, failed, Bool.false_eq_true, if_false]
  split <;> exact ⟨_, rfl⟩

theorem load_cases {issued : ℕ} {url : String}
    (signed : parties.Signed env ref .get issued url) :
    (parties.load env url state = (.ok (403, []), state.waited) ∧
        parties.admits env state.tick (.download url) = false ∧ Late env issued state.tick) ∨
      parties.admits env state.tick (.download url) = true ∧
        (parties.load env url state).2 = state.waited ∧
        ((∃ bytes, (parties.load env url state).1 = .ok (200, bytes) ∧
            parties.presigner.anchor.getShard state.anchor ref = .ok bytes) ∨
          (parties.load env url state).1 = .ok (404, []) ∧
            parties.presigner.anchor.getShard state.anchor ref = .error .notFound ∨
          (parties.load env url state).1 = .ok (500, []) ∧ 
            parties.Refuses (.get (parties.presigner.anchor.shardKey ref))) := by
  rw [load, admits]
  cases opened : parties.presigner.urls.opens .get url (env.clock state.tick).seconds with
  | none => exact Or.inl ⟨rfl, rfl, Signed.late signed opened⟩
  | some key =>
      right
      rcases Signed.key signed opened with rfl
      refine ⟨rfl, ?_⟩
      simp only [RustFsBlobAnchor.getShard, ObjectService.get]
      cases refusal : parties.presigner.anchor.service.refusal
          (.get (parties.presigner.anchor.shardKey ref)) with
      | some reason => exact ⟨rfl, Or.inr (Or.inr ⟨rfl, reason, refusal⟩)⟩
      | none =>
          cases found : state.anchor.lookup (parties.presigner.anchor.shardKey ref) with
          | none => exact ⟨rfl, Or.inr (Or.inl ⟨rfl, rfl⟩)⟩
          | some bytes => exact ⟨rfl, Or.inl ⟨bytes, rfl, rfl⟩⟩

theorem download_snd {issued : ℕ} {url : String}
    (signed : parties.Signed env ref .get issued url) :
    (parties.met env (.download url) state (parties.outages state.tick)).2 = state.waited := by
  have served : (parties.serve env (.download url) state).2 = state.waited := by
    rw [serve]
    rcases load_cases signed with ⟨loaded, -⟩ | ⟨-, loaded, -⟩
    · rw [loaded]
    · exact loaded
  rw [met_snd state.waited (by rw [served, ite_self]), ite_self]

theorem download_told {issued : ℕ} {url : String}
    (signed : parties.Signed env ref .get issued url) :
    (∃ bytes, parties.agent.downloaded
          (parties.met env (.download url) state (parties.outages state.tick)).1 = .ok bytes ∧
        parties.presigner.anchor.getShard state.anchor ref = .ok bytes) ∨
      (parties.agent.downloaded
          (parties.met env (.download url) state (parties.outages state.tick)).1 =
            .error .notFound ∧
        parties.presigner.anchor.getShard state.anchor ref = .error .notFound ∧
        (parties.outages state.tick).isNone ∧
        parties.takesPlace env state.tick (.download url) = true) ∨
      ∃ error, parties.agent.downloaded
          (parties.met env (.download url) state (parties.outages state.tick)).1 =
            .error error ∧
        ¬(error = .notFound ∧ (parties.outages state.tick).isNone ∧
          parties.takesPlace env state.tick (.download url) = true) ∧
        ((parties.outages state.tick).isSome = true ∨ Late env issued state.tick ∨
          parties.Refuses (.get (parties.presigner.anchor.shardKey ref))) := by
  rcases met_fst (.download url) with
    ⟨calm, heard⟩ | ⟨struck, ⟨reason, heard⟩ | ⟨status, failed, heard⟩⟩
  · rw [heard, serve]
    rcases load_cases signed with ⟨served, shut, late⟩ |
      ⟨opened, -, ⟨bytes, answered, got⟩ | ⟨answered, got⟩ | ⟨answered, refuses⟩⟩
    · rw [served]
      exact Or.inr (Or.inr ⟨_, rfl, by simp [takesPlace, shut], Or.inr (Or.inl late)⟩)
    · rw [answered]
      exact Or.inl ⟨bytes, rfl, got⟩
    · rw [answered]
      exact Or.inr (Or.inl ⟨rfl, got, by simp [calm],
        by simp [takesPlace, arrives, calm, opened]⟩)
    · rw [answered]
      exact Or.inr (Or.inr ⟨_, rfl, by rintro ⟨⟨⟩, -⟩, Or.inr (Or.inr refuses)⟩)
  · rw [heard]
    exact Or.inr (Or.inr ⟨_, rfl, by rintro ⟨⟨⟩, -⟩, Or.inl struck⟩)
  · rw [heard]
    rcases downloaded_of_failed failed with ⟨error, told⟩
    refine Or.inr (Or.inr ⟨error, told, ?_, Or.inl struck⟩)
    rintro ⟨-, calm, -⟩
    rw [Option.isNone_iff_eq_none.mp calm] at struck
    cases struck

/-- A download through a URL for the shard is the call of the anchor, or lapses. -/
theorem download_lapsed {issued : ℕ} {url : String}
    (signed : parties.Signed env ref .get issued url) :
    lapsed env parties.presigner.anchor.model state (.getShard ref)
        (parties.lapse env state.tick (.download url)
          (parties.met env (.download url) state (parties.outages state.tick)).1) =
      (parties.agent.downloaded
          (parties.met env (.download url) state (parties.outages state.tick)).1,
        (parties.met env (.download url) state (parties.outages state.tick)).2) ∧
    ((parties.lapse env state.tick (.download url)
        (parties.met env (.download url) state (parties.outages state.tick)).1).isSome →
      ((parties.outages state.tick).isSome = true ∨ Late env issued state.tick ∨
          parties.Refuses (.get (parties.presigner.anchor.shardKey ref)))) := by
  rw [download_snd signed]
  rcases download_told signed with
    ⟨bytes, went, got⟩ | ⟨missing, got, calm, placed⟩ | ⟨error, failed, other, hindered⟩
  · rw [went, lapse_of_ok (by simp [errorOf, errorOf.failure, went]), ← got]
    exact ⟨rfl, by rintro ⟨⟩⟩
  · have noted : parties.errorOf (.download url)
        (parties.met env (.download url) state (parties.outages state.tick)).1 =
          some .notFound := by
      simp [errorOf, errorOf.failure, missing]
    rw [missing, lapse, noted, ← got]
    simp only [calm, placed, and_self, if_true]
    exact ⟨rfl, by rintro ⟨⟩⟩
  · have noted : parties.errorOf (.download url)
        (parties.met env (.download url) state (parties.outages state.tick)).1 = some error := by
      simp [errorOf, errorOf.failure, failed]
    rw [failed, lapse, noted]
    dsimp only
    rw [if_neg other]
    exact ⟨by simp [lapsed, PortCall.isAnchor, PortCall.failed, World.after, World.waited,
      MemoryMetadataStore.after, AnchorModel.after], fun _ => hindered⟩

/-! ## Deleting -/

theorem deleted_of_failed {resp : Response} (failed : resp.isSuccess = false) :
    parties.agent.deleted (.ok resp) = .error (.backend
      ("coordinator delete-blob returned " ++ parties.server.words.status resp.status)) := by
  simp [PresignedBlobAnchor.deleted, failed, agent]

theorem delete_snd (admitted : parties.server.blocked = false) (ns : NamespaceId)
    (blobId : BlobId) (state : World Bucket) :
    (parties.met env (.deleteBlob (parties.agent.deleteBody ns blobId)) state
        (parties.outages state.tick)).2 =
      if parties.takesPlace env state.tick
          (.deleteBlob (parties.agent.deleteBody ns blobId)) then
        state.after parties.presigner.anchor.model (.deleteBlob ns blobId)
      else
        state.waited := by
  apply met_snd
  rw [serve, ask_deleteBlob admitted, admits]
  generalize parties.agent.deleteBody ns blobId = text
  by_cases long : bodyLimit < (utf8 text).length
  · rw [if_pos long, if_neg (by simpa using long)]
  · rw [if_neg long, if_pos (by simpa using long)]

theorem delete_told (admitted : parties.server.blocked = false) (ns : NamespaceId)
    (blobId : BlobId) (state : World Bucket) :
    (parties.agent.deleted
          (parties.met env (.deleteBlob (parties.agent.deleteBody ns blobId)) state
            (parties.outages state.tick)).1 = .ok () ∧
        parties.takesPlace env state.tick
          (.deleteBlob (parties.agent.deleteBody ns blobId)) = true ∧
        (parties.presigner.anchor.deleteBlob state.anchor ns blobId).1 = .ok ()) ∨
      ∃ error, parties.agent.deleted
          (parties.met env (.deleteBlob (parties.agent.deleteBody ns blobId)) state
            (parties.outages state.tick)).1 = .error error ∧ error ≠ .notFound ∧
        ((parties.outages state.tick).isSome = true ∨
          bodyLimit < (utf8 (parties.agent.deleteBody ns blobId)).length ∨
            ∃ request, parties.presigner.anchor.Removes ns blobId request ∧
              parties.Refuses request) := by
  rcases met_fst (.deleteBlob (parties.agent.deleteBody ns blobId)) with
    ⟨calm, heard⟩ | ⟨struck, ⟨reason, heard⟩ | ⟨status, failed, heard⟩⟩
  · rw [heard, serve, ask_deleteBlob admitted]
    by_cases long : bodyLimit < (utf8 (parties.agent.deleteBody ns blobId)).length
    · rw [if_pos long]
      exact Or.inr ⟨_, deleted_of_failed rfl, by rintro ⟨⟩, Or.inr (Or.inl long)⟩
    · rw [if_neg long]
      cases outcome : (parties.presigner.anchor.deleteBlob state.anchor ns blobId).1 with
      | ok done =>
          refine Or.inl ⟨rfl, ?_, rfl⟩
          simp only [takesPlace, arrives, calm, admits, Bool.true_and, decide_eq_true_eq]
          exact Nat.le_of_not_lt long
      | error error =>
          rcases RustFsBlobAnchor.deleteBlob_of_error outcome with
            ⟨request, reason, removes, refused⟩
          exact Or.inr ⟨_, deleted_of_failed (err_not_success _ error), by rintro ⟨⟩,
            Or.inr (Or.inr ⟨request, removes, reason, refused⟩)⟩
  · rw [heard]
    exact Or.inr ⟨_, rfl, by rintro ⟨⟩, Or.inl struck⟩
  · rw [heard]
    exact Or.inr ⟨_, deleted_of_failed failed, by rintro ⟨⟩, Or.inl struck⟩

/-- The coordinator's deletion is the call of the anchor, or lapses. -/
theorem delete_lapsed (admitted : parties.server.blocked = false) (ns : NamespaceId)
    (blobId : BlobId) (state : World Bucket) :
    lapsed env parties.presigner.anchor.model state (.deleteBlob ns blobId)
        (parties.lapse env state.tick (.deleteBlob (parties.agent.deleteBody ns blobId))
          (parties.met env (.deleteBlob (parties.agent.deleteBody ns blobId)) state
            (parties.outages state.tick)).1) =
      (parties.agent.deleted
          (parties.met env (.deleteBlob (parties.agent.deleteBody ns blobId)) state
            (parties.outages state.tick)).1,
        (parties.met env (.deleteBlob (parties.agent.deleteBody ns blobId)) state
          (parties.outages state.tick)).2) ∧
    ((parties.lapse env state.tick (.deleteBlob (parties.agent.deleteBody ns blobId))
        (parties.met env (.deleteBlob (parties.agent.deleteBody ns blobId)) state
          (parties.outages state.tick)).1).isSome →
      ((parties.outages state.tick).isSome = true ∨
          bodyLimit < (utf8 (parties.agent.deleteBody ns blobId)).length ∨
            ∃ request, parties.presigner.anchor.Removes ns blobId request ∧
              parties.Refuses request)) := by
  rw [delete_snd admitted]
  rcases delete_told admitted ns blobId state with
    ⟨went, placed, done⟩ | ⟨error, failed, other, hindered⟩
  · rw [went, lapse_of_ok (by simp [errorOf, errorOf.failure, went]), if_pos placed, ← done]
    exact ⟨rfl, by rintro ⟨⟩⟩
  · rw [failed, lapse_of_error (by simp [errorOf, errorOf.failure, failed]) other]
    exact ⟨rfl, fun _ => hindered⟩

end Parties

end Requests

/-! ## Runs -/

namespace PresignedBlobAnchor

variable {self : PresignedBlobAnchor} {ref : ShardRef} {op : PresignOp} {α : Type}
  {use : String → AnchorCall}
  {decode : (url : String) → Except String (use url).Reply → PortResult α}

/-- What is done with a URL, or without one. -/
def through (use : String → AnchorCall)
    (decode : (url : String) → Except String (use url).Reply → PortResult α) :
    PortResult String → NodeProgram (PortResult α)
  | .error error => pure (.error error)
  | .ok url => .call (.anchor (use url)) fun answer => .done (.ok (decode url answer))

theorem putShard_eq (self : PresignedBlobAnchor) (ref : ShardRef) (bytes : Bytes) :
    self.putShard ref bytes = .call (.anchor (.presign (self.presignBody ref .put))) fun answer =>
      through (fun url => .upload url bytes) (fun _ => self.uploaded) (self.urlOf answer) := by
  rw [putShard, presignedUrl, Program.call_bind]
  congr 1

theorem getShard_eq (self : PresignedBlobAnchor) (ref : ShardRef) :
    self.getShard ref = .call (.anchor (.presign (self.presignBody ref .get))) fun answer =>
      through (fun url => .download url) (fun _ => self.downloaded) (self.urlOf answer) := by
  rw [getShard, presignedUrl, Program.call_bind]
  congr 1

/-- A transfer asks for a URL and then uses it. -/
theorem reaches_through {made : List (Exchange nodeCalls)} {call : NodeCall}
    {next : NodeCall.Answer call → NodeProgram (PortResult α)}
    (reaches : (Program.call (.anchor (.presign (self.presignBody ref op))) fun answer =>
      through use decode (self.urlOf answer) : NodeProgram (PortResult α)).Reaches made
        (.call call next)) :
    (made = [] ∧ (Program.call call next : NodeProgram (PortResult α)) =
        .call (.anchor (.presign (self.presignBody ref op))) fun answer =>
          through use decode (self.urlOf answer)) ∨
      ∃ told url, self.urlOf told = .ok url ∧
        made = [⟨.anchor (.presign (self.presignBody ref op)), told⟩] ∧
          (Program.call call next : NodeProgram (PortResult α)) =
            .call (.anchor (use url)) fun answer => .done (.ok (decode url answer)) := by
  rcases reaches.of_call with ⟨first, same⟩ | ⟨told, later, rfl, reached⟩
  · exact Or.inl ⟨first, same⟩
  · right
    cases found : self.urlOf told with
    | error error =>
        rw [found] at reached
        cases reached
    | ok url =>
        rw [found] at reached
        rcases reached.of_call with ⟨rfl, same⟩ | ⟨answer, last, -, ended⟩
        · exact ⟨told, url, found, rfl, same⟩
        · cases ended

end PresignedBlobAnchor

theorem getElem?_of_longer {before after : NodeTrace} (grown : before <+: after) {place : ℕ}
    {event : ℕ × Exchange nodeCalls} (found : before[place]? = some event) :
    after[place]? = some event := by
  rcases grown with ⟨rest, rfl⟩
  rw [List.getElem?_append_left (List.getElem?_eq_some_iff.mp found).1]
  exact found

/-- An event is among the earlier ones, or the one now added. -/
theorem getElem?_concat_cases {events : NodeTrace} {place : ℕ}
    {event found : ℕ × Exchange nodeCalls}
    (there : (events ++ [event])[place]? = some found) :
    events[place]? = some found ∨ place = events.length ∧ event = found := by
  rcases Nat.lt_or_ge place events.length with inside | outside
  · rw [List.getElem?_append_left inside] at there
    exact Or.inl there
  · have inside := (List.getElem?_eq_some_iff.mp there).1
    rw [List.length_append, List.length_singleton] at inside
    rcases Nat.le_antisymm outside (Nat.le_of_lt_succ inside) with rfl
    rw [List.getElem?_concat_length] at there
    exact Or.inr ⟨rfl, Option.some.inj there⟩

namespace Parties

variable {parties : Parties} {env : Environment} {first : ℕ} {events grown : NodeTrace}
  {place index : ℕ}

theorem Spent.mono {op : PresignOp} {url : String}
    (spent : parties.Spent env first events place index op url) (isPrefix : events <+: grown) :
    parties.Spent env first grown place index op url := by
  rcases spent with ⟨ref, asked, before, ⟨⟨answer, heard, read⟩, signed⟩, cause⟩
  exact ⟨ref, asked, before, ⟨⟨answer, getElem?_of_longer isPrefix heard, read⟩, signed⟩, cause⟩

theorem Hindered.mono {call : AnchorCall}
    (hindered : parties.Hindered env first events place index call)
    (isPrefix : events <+: grown) : parties.Hindered env first grown place index call := by
  rcases hindered with struck | cause
  · exact Or.inl struck
  · right
    cases call with
    | presign body => exact cause
    | deleteBlob body => exact cause
    | upload url bytes => exact Spent.mono cause isPrefix
    | download url => exact Spent.mono cause isPrefix

end Parties

/-- A run behind presigned URLs, next to the run with the store itself: every URL told was signed
for its shard at that time, and every lapse has a reason. -/
structure Mirrored (parties : Parties) (env : Environment) (first : ℕ) (state : World Bucket)
    (mirror : World Bucket) (events : NodeTrace) : Prop where
  same : state = mirror
  time : state.tick = first + events.length
  told : ∀ asked index ref op answer url,
    events[asked]? = some
        (index, ⟨.anchor (.presign (parties.agent.presignBody ref op)), answer⟩) →
      parties.agent.urlOf answer = .ok url → parties.Signed env ref op (first + asked) url
  hindered : ∀ place index call answer,
    events[place]? = some (index, ⟨.anchor call, answer⟩) →
      (parties.lapse env (first + place) call answer).isSome →
        parties.Hindered env first events place index call

namespace Mirrored

variable {parties : Parties} {env : Environment} {first : ℕ} {state mirror next : World Bucket}
  {events : NodeTrace} {index : ℕ}

/-- After another event. -/
theorem step (mirrored : Mirrored parties env first state mirror events)
    {exchange : Exchange nodeCalls} (ticked : next.tick = state.tick + 1)
    (told : ∀ ref op answer url,
      exchange = ⟨.anchor (.presign (parties.agent.presignBody ref op)), answer⟩ →
        parties.agent.urlOf answer = .ok url → parties.Signed env ref op state.tick url)
    (hindered : ∀ call answer, exchange = ⟨.anchor call, answer⟩ →
      (parties.lapse env state.tick call answer).isSome →
        parties.Hindered env first events events.length index call) :
    Mirrored parties env first next next (events ++ [(index, exchange)]) := by
  refine ⟨rfl, ?_, ?_, ?_⟩
  · rw [ticked, mirrored.time, List.length_append, List.length_singleton, Nat.add_assoc]
  · intro asked index' ref op answer url found heard
    rcases getElem?_concat_cases found with before | ⟨rfl, here⟩
    · exact mirrored.told asked index' ref op answer url before heard
    · rw [← mirrored.time]
      exact told ref op answer url (congrArg Prod.snd here) heard
  · intro place index' call answer found lapsed
    rcases getElem?_concat_cases found with before | ⟨rfl, here⟩
    · exact (mirrored.hindered place index' call answer before lapsed).mono
        (List.prefix_append _ _)
    · cases here
      rw [← mirrored.time] at lapsed
      exact (hindered call answer rfl lapsed).mono (List.prefix_append _ _)

/-- What lapses now is read off the event now added. -/
theorem lapses_eq (mirrored : Mirrored parties env first state mirror events) {whole : NodeTrace}
    {call : AnchorCall} {answer : Except String call.Reply}
    (grown : events ++ [(index, ⟨.anchor call, answer⟩)] <+: whole) :
    parties.lapses env first whole state.tick = parties.lapse env state.tick call answer := by
  have found : whole[state.tick - first]? = some (index, ⟨.anchor call, answer⟩) := by
    rcases grown with ⟨rest, rfl⟩
    rw [mirrored.time, Nat.add_sub_cancel_left, List.append_assoc,
      List.getElem?_append_right le_rfl, Nat.sub_self]
    rfl
  rw [Parties.lapses, if_pos (by rw [mirrored.time]; exact Nat.le_add_right _ _), found]

/-- After a request for a URL. -/
theorem presign (mirrored : Mirrored parties env first state mirror events)
    (admitted : parties.server.blocked = false) (ref : ShardRef) (op : PresignOp) :
    Mirrored parties env first state.waited state.waited
      (events ++ [(index, ⟨.anchor (.presign (parties.agent.presignBody ref op)),
        (parties.met env (.presign (parties.agent.presignBody ref op)) state
          (parties.outages state.tick)).1⟩)]) := by
  apply mirrored.step rfl
  · intro ref' op' answer url same heard
    generalize body : parties.agent.presignBody ref' op' = text at same
    cases same
    rw [← body] at heard
    rcases Parties.presign_told admitted ref' op' state with
      ⟨found, told, signed⟩ | ⟨error, failed, -⟩
    · rcases Except.ok.inj (told.symm.trans heard) with rfl
      exact signed
    · rw [failed] at heard
      cases heard
  · intro call answer same lapsed
    cases same
    rcases Parties.presign_told admitted ref op state with
      ⟨found, told, -⟩ | ⟨error, failed, other, struck | cause⟩
    · rw [Parties.lapse_presign_of_ok told] at lapsed
      cases lapsed
    · exact Or.inl (by rwa [← mirrored.time])
    · exact Or.inr ⟨ref, op, rfl, by rwa [← mirrored.time]⟩

/-- After any other request for the anchor. -/
theorem request (mirrored : Mirrored parties env first state mirror events) {call : AnchorCall}
    {answer : Except String call.Reply} (other : ∀ body, call ≠ .presign body)
    (ticked : next.tick = state.tick + 1)
    (hindered : (parties.lapse env state.tick call answer).isSome →
      parties.Hindered env first events events.length index call) :
    Mirrored parties env first next next (events ++ [(index, ⟨.anchor call, answer⟩)]) := by
  apply mirrored.step ticked
  · intro ref op answer url same heard
    generalize parties.agent.presignBody ref op = text at same
    cases same
    exact absurd rfl (other text)
  · intro call answer same lapsed
    cases same
    exact hindered lapsed

/-- A URL which the node uses was told to it, and is spent if its transfer lapses. -/
theorem spent (mirrored : Mirrored parties env first state mirror events) {ref : ShardRef}
    {op : PresignOp} {url : String} {asked : ℕ} {answer : Except String Response}
    (found : events[asked]? =
      some (index, ⟨.anchor (.presign (parties.agent.presignBody ref op)), answer⟩))
    (heard : parties.agent.urlOf answer = .ok url)
    (cause : Parties.Late env (first + asked) state.tick ∨
      parties.Refuses (op.request (parties.presigner.anchor.shardKey ref))) :
    parties.Spent env first events events.length index op url := by
  rw [mirrored.time] at cause
  exact ⟨ref, asked, (List.getElem?_eq_some_iff.mp found).1,
    ⟨⟨answer, found, heard⟩, mirrored.told asked index ref op answer url found heard⟩, cause⟩

/-- After a call of another port. -/
theorem port (mirrored : Mirrored parties env first state mirror events) {call : PortCall}
    {answer : call.Answer} (ticked : next.tick = state.tick + 1) :
    Mirrored parties env first next next (events ++ [(index, ⟨.port call, answer⟩)]) := by
  apply mirrored.step ticked
  · intro ref op answer url same heard
    cases same
  · intro call answer same lapsed
    cases same

end Mirrored

theorem lapsed_now {A : Type} (env : Environment) (anchors : AnchorModel A) (state : World A)
    (lapse : Option Lapse) : (lapsed env anchors state .now lapse).2 = state.waited := by
  cases lapse <;> rfl

theorem lapsed_of_other {A : Type} (env : Environment) (anchors : AnchorModel A)
    (state : World A) {call : PortCall} (other : call.isAnchor = false) (lapse : Option Lapse) :
    lapsed env anchors state call lapse = (world env anchors).answer state call := by
  cases lapse with
  | none => rfl
  | some lapse => simp [lapsed, other]

section Carrying

variable {parties : Parties} {env : Environment} {first : ℕ} {whole : NodeTrace}
  {state : World Bucket} {events : NodeTrace} {index : ℕ} {ref : ShardRef}

/-- A lower call for `request` is its last one, and `request` takes place now; or nothing is seen
of it. -/
def Proceeds (parties : Parties) (env : Environment) (first : ℕ) (whole : NodeTrace)
    (state : World Bucket) (events : NodeTrace) (index : ℕ) (request : PortCall) (call : NodeCall)
    (next : NodeCall.Answer call → NodeProgram request.Answer) : Prop :=
  let direct := lapsingWorld env parties.presigner.anchor.model (parties.lapses env first whole)
  let answered := (presignedWorld parties env).answer state call
  (next answered.1 = .done (.ok (direct.answer state request).1) ∧
      Mirrored parties env first answered.2 (direct.answer state request).2
        (events ++ [(index, ⟨call, answered.1⟩)])) ∨
    ((next answered.1).result? = none ∧
      Mirrored parties env first answered.2 (direct.answer state .now).2
        (events ++ [(index, ⟨call, answered.1⟩)]))

theorem proceeds_putShard (admitted : parties.server.blocked = false)
    (mirrored : Mirrored parties env first state state events) {bytes : Bytes}
    {made : List (Exchange nodeCalls)} {call : NodeCall}
    {next : NodeCall.Answer call → NodeProgram (PortResult Unit)}
    (reaches : (parties.agent.putShard ref bytes).Reaches made (.call call next))
    (subset : made ⊆ pastOf index events)
    (grown : events ++ [(index, ⟨call, ((presignedWorld parties env).answer state call).1⟩)] <+:
      whole) :
    Proceeds parties env first whole state events index (.putShard ref bytes) call next := by
  rw [PresignedBlobAnchor.putShard_eq] at reaches
  rcases PresignedBlobAnchor.reaches_through reaches with
    ⟨rfl, same⟩ | ⟨told, url, heard, rfl, same⟩
  · cases same
    dsimp only [Proceeds, presignedWorld, lapsingWorld] at grown ⊢
    rw [Parties.presign_snd admitted, lapsed_now, mirrored.lapses_eq grown]
    rcases Parties.presign_told admitted ref .put state with
      ⟨url, told, -⟩ | ⟨error, failed, other, -⟩
    · right
      rw [told]
      exact ⟨rfl, mirrored.presign admitted ref .put⟩
    · left
      rw [failed, Parties.lapse_presign failed]
      exact ⟨rfl, mirrored.presign admitted ref .put⟩
  · cases same
    rcases List.getElem?_of_mem (mem_pastOf.mp (subset (List.mem_singleton_self _))) with
      ⟨asked, found⟩
    have signed : parties.Signed env ref .put (first + asked) url :=
      mirrored.told asked index ref .put told url found heard
    rcases Parties.upload_lapsed signed bytes with ⟨direct, hindered⟩
    left
    dsimp only [presignedWorld, lapsingWorld] at grown ⊢
    rw [mirrored.lapses_eq grown, direct]
    refine ⟨rfl, mirrored.request (by rintro _ ⟨⟩) ?_ ?_⟩
    · rw [Parties.upload_snd signed bytes]
      split <;> rfl
    · intro lapsed
      rcases hindered lapsed with struck | cause
      · exact Or.inl (by rwa [← mirrored.time])
      · exact Or.inr (mirrored.spent found heard cause)

theorem proceeds_getShard (admitted : parties.server.blocked = false)
    (mirrored : Mirrored parties env first state state events)
    {made : List (Exchange nodeCalls)} {call : NodeCall}
    {next : NodeCall.Answer call → NodeProgram (PortResult Bytes)}
    (reaches : (parties.agent.getShard ref).Reaches made (.call call next))
    (subset : made ⊆ pastOf index events)
    (grown : events ++ [(index, ⟨call, ((presignedWorld parties env).answer state call).1⟩)] <+:
      whole) :
    Proceeds parties env first whole state events index (.getShard ref) call next := by
  rw [PresignedBlobAnchor.getShard_eq] at reaches
  rcases PresignedBlobAnchor.reaches_through reaches with
    ⟨rfl, same⟩ | ⟨told, url, heard, rfl, same⟩
  · cases same
    dsimp only [Proceeds, presignedWorld, lapsingWorld] at grown ⊢
    rw [Parties.presign_snd admitted, lapsed_now, mirrored.lapses_eq grown]
    rcases Parties.presign_told admitted ref .get state with
      ⟨url, told, -⟩ | ⟨error, failed, other, -⟩
    · right
      rw [told]
      exact ⟨rfl, mirrored.presign admitted ref .get⟩
    · left
      rw [failed, Parties.lapse_presign failed]
      exact ⟨rfl, mirrored.presign admitted ref .get⟩
  · cases same
    rcases List.getElem?_of_mem (mem_pastOf.mp (subset (List.mem_singleton_self _))) with
      ⟨asked, found⟩
    have signed : parties.Signed env ref .get (first + asked) url :=
      mirrored.told asked index ref .get told url found heard
    rcases Parties.download_lapsed signed with ⟨direct, hindered⟩
    left
    dsimp only [presignedWorld, lapsingWorld] at grown ⊢
    rw [mirrored.lapses_eq grown, direct]
    refine ⟨rfl, mirrored.request (by rintro _ ⟨⟩) ?_ ?_⟩
    · rw [Parties.download_snd signed]
      rfl
    · intro lapsed
      rcases hindered lapsed with struck | cause
      · exact Or.inl (by rwa [← mirrored.time])
      · exact Or.inr (mirrored.spent found heard cause)

theorem proceeds_deleteBlob (admitted : parties.server.blocked = false)
    (mirrored : Mirrored parties env first state state events) {ns : NamespaceId}
    {blobId : BlobId} {made : List (Exchange nodeCalls)} {call : NodeCall}
    {next : NodeCall.Answer call → NodeProgram (PortResult Unit)}
    (reaches : (parties.agent.deleteBlob ns blobId).Reaches made (.call call next))
    (grown : events ++ [(index, ⟨call, ((presignedWorld parties env).answer state call).1⟩)] <+:
      whole) :
    Proceeds parties env first whole state events index (.deleteBlob ns blobId) call next := by
  rcases reaches.of_call with ⟨-, same⟩ | ⟨answer, later, -, ended⟩
  · cases same
    rcases Parties.delete_lapsed admitted ns blobId state with ⟨direct, hindered⟩
    left
    dsimp only [presignedWorld, lapsingWorld] at grown ⊢
    rw [mirrored.lapses_eq grown, direct]
    refine ⟨rfl, mirrored.request (by rintro _ ⟨⟩) ?_ ?_⟩
    · rw [Parties.delete_snd admitted]
      split <;> rfl
    · intro lapsed
      rcases hindered lapsed with struck | cause
      · exact Or.inl (by rwa [← mirrored.time])
      · exact Or.inr ⟨ns, blobId, rfl, cause⟩
  · cases ended

theorem proceeds_port (mirrored : Mirrored parties env first state state events)
    {request : PortCall} (other : request.isAnchor = false)
    {made : List (Exchange nodeCalls)} {call : NodeCall}
    {next : NodeCall.Answer call → NodeProgram request.Answer}
    (reaches : (Program.call (.port request) fun answer =>
      .done (.ok answer) : NodeProgram request.Answer).Reaches made (.call call next)) :
    Proceeds parties env first whole state events index request call next := by
  rcases reaches.of_call with ⟨-, same⟩ | ⟨answer, later, -, ended⟩
  · cases same
    left
    dsimp only [presignedWorld, lapsingWorld]
    rw [lapsed_of_other env _ state other]
    exact ⟨rfl, mirrored.port rfl⟩
  · cases ended

theorem presigned_carries (admitted : parties.server.blocked = false) (env : Environment)
    (first : ℕ) (whole : NodeTrace) :
    System.Carries (presignedWorld parties env)
      (lapsingWorld env parties.presigner.anchor.model (parties.lapses env first whole))
      parties.agent.carry .now whole (Mirrored parties env first) := by
  constructor
  · intro request
    cases request <;> rfl
  · intro state mirror events index request made call next mirrored reaches subset grown
    rcases mirrored.same with rfl
    cases request with
    | putShard ref bytes => exact proceeds_putShard admitted mirrored reaches subset grown
    | getShard ref => exact proceeds_getShard admitted mirrored reaches subset grown
    | deleteBlob ns blobId => exact proceeds_deleteBlob admitted mirrored reaches grown
    | _ => exact proceeds_port mirrored rfl reaches

end Carrying

/-- Whatever use-cases run on nodes behind presigned URLs, and in whatever order their requests
come, the run is one with the object store itself in which some calls of the anchor lapse, and
every lapse has its reason. An onlooker reads the clock where requests take longer. -/
theorem presigned_is_direct {parties : Parties} (admitted : parties.server.blocked = false)
    (env : Environment) (first : World Bucket) (programs : List (UseCase Unit))
    (schedule : List ℕ) :
    let run := System.exec (presignedWorld parties env)
      (System.start first (programs.map (Program.carriedOut parties.agent.carry))) schedule
    ∃ lapses turns left,
      let direct := System.exec (lapsingWorld env parties.presigner.anchor.model lapses)
        (System.start first (programs ++ [System.pauses PortCall.now left])) turns
      run.state = direct.state ∧
        (∀ index, index < programs.length → ∀ result,
          run.Ended index result ↔ direct.Ended index result) ∧
        ∀ tick lapse, lapses tick = some lapse → ∃ place index call answer,
          tick = first.tick + place ∧ run.trace[place]? = some (index, ⟨.anchor call, answer⟩) ∧
            parties.Hindered env first.tick run.trace place index call := by
  intro run
  have initial : Mirrored parties env first.tick first first [] :=
    ⟨rfl, rfl, by simp, by simp⟩
  have carries := presigned_carries admitted env first.tick run.trace
  rcases carries.exec_start programs initial schedule (List.prefix_refl _) with
    ⟨turns, left, abreast⟩
  refine ⟨parties.lapses env first.tick run.trace, turns, schedule.length, abreast.states.same,
    ?_, ?_⟩
  · intro index inside result
    apply abreast.ended_iff
    rw [System.length_programs_exec]
    simpa [System.start] using inside
  · intro tick lapse lapsed
    rw [Parties.lapses] at lapsed
    split at lapsed
    · next after =>
        split at lapsed
        · next found =>
            have placed : tick = first.tick + (tick - first.tick) :=
              (Nat.add_sub_cancel' after).symm
            refine ⟨_, _, _, _, placed, found, ?_⟩
            have hindered := abreast.states.hindered _ _ _ _ found
            rw [← placed, lapsed] at hindered
            exact hindered rfl
        · cases lapsed
    · cases lapsed

def transferName : Transfer → String
  | .put => "PUT"
  | .get => "GET"

/-- URLs which only say what they are for. -/
def openUrls : SignedUrls where
  sign transfer key issued ttl :=
    .ok (Json.compact.toText
      (.array [.string (transferName transfer), toJson key, .number issued, .number ttl]))
  opens transfer url now :=
    match Json.compact.parse url with
    | some (.array [.string name, key, .number issued, .number ttl]) =>
        if name = transferName transfer ∧ issued ≤ now ∧ now ≤ issued + ttl then
          fromJson key
        else
          none
    | _ => none
  opens_sign := by
    rintro transfer key issued ttl url now ⟨⟩ after before
    rw [Json.compact.parse_toText]
    simp [after, before]
  sign_of_opens := by
    rintro transfer transfer' key key' issued ttl url now ⟨⟩ opened
    rw [Json.compact.parse_toText] at opened
    simp only [fromJson_toJson] at opened
    split at opened
    · next granted =>
        rcases Option.some.inj opened with rfl
        refine ⟨?_, rfl, granted.2.2⟩
        rcases granted with ⟨named, -⟩
        revert named
        cases transfer <;> cases transfer' <;> decide
    · cases opened

/-- The answer to the last upload is lost. -/
def lostAnswer (tick : ℕ) : Option Outage :=
  if tick = 9 then some (.lost "connection reset") else none

def sampleParties : Parties :=
  ⟨openCoordinator, MetadataCall.nonEmptySegments, ⟨bucketAnchor, openUrls⟩, lostAnswer⟩

def presignedPut : System nodeCalls Failure (World Bucket) :=
  System.exec (presignedWorld sampleParties sampleEnvironment)
    (System.start bucketWorld
      ([(samplePut 7).program replicatingNode].map (Program.carriedOut sampleParties.agent.carry)))
    (List.replicate 12 0)

theorem presigned_is_direct_lost :
    ∃ lapses turns left,
      let direct := System.exec (lapsingWorld sampleEnvironment bucketAnchor.model lapses)
        (System.start bucketWorld
          ([(samplePut 7).program replicatingNode] ++ [System.pauses PortCall.now left])) turns
      direct.Ended 0 (.error (.port (.unavailable "presign transport: connection reset"))) ∧
        direct.state.anchor.lookup
          (bucketAnchor.shardKey ⟨⟨"ns-1"⟩, ⟨"blob-5"⟩, 1⟩) = some [7] := by
  have failed : presignedPut.Ended 0
      (.error (.port (.unavailable "presign transport: connection reset"))) := by
    apply System.ended_of_result
    decide +kernel
  have stored : presignedPut.state.anchor.lookup
      (bucketAnchor.shardKey ⟨⟨"ns-1"⟩, ⟨"blob-5"⟩, 1⟩) = some [7] := by
    decide +kernel
  rw [presignedPut] at failed stored
  rcases presigned_is_direct (rfl : sampleParties.server.blocked = false) sampleEnvironment
    bucketWorld [(samplePut 7).program replicatingNode] (List.replicate 12 0) with
      ⟨lapses, turns, left, same, ended, -⟩
  refine ⟨lapses, turns, left, (ended 0 Nat.zero_lt_one _).mp failed, ?_⟩
  rw [same] at stored
  exact stored

end VaultMesh
