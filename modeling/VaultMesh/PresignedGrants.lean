import VaultMesh.PresignedRefinement

/-!
# Nothing without a URL of the coordinator

Anyone may send requests to the coordinator and to the object store, in any
order. As long as nobody forges a signature, every object in the store is there
because it was uploaded through a URL which the coordinator has signed for that
object shortly before, and objects are read in no other way. What is gone was
deleted by the coordinator on somebody's request.
-/

namespace VaultMesh

open Interaction Files Coding Coding.Serde Coding.Urls

def PresignRequest.ref (req : PresignRequest) : ShardRef :=
  ⟨req.ns, req.blobId, req.index⟩

/-- What the coordinator reads in a body. -/
def Parties.requestOf {ρ : Type} [Serde ρ] (parties : Parties) (body : String) : Option ρ :=
  (parties.server.words.parseFront body).bind fromJson

/-- A transfer, and the URL which it is made through. -/
def AnchorCall.transfer? : AnchorCall → Option (Transfer × String)
  | .upload url _ => some (.put, url)
  | .download url => some (.get, url)
  | _ => none

/-- A call which needs no credentials for the object store. -/
def NodeCall.Uncredentialed : NodeCall → Prop
  | .port call => call.isAnchor = false
  | .anchor _ => True

/-- A call of a node, which has no credentials and uses the URLs that it was told. -/
def PresignedBlobAnchor.Honest (agent : PresignedBlobAnchor) (past : List (Exchange nodeCalls)) :
    NodeCall → Prop
  | .port call => call.isAnchor = false
  | .anchor call => ∀ transfer url, call.transfer? = some (transfer, url) →
      ∃ body answer, (⟨.anchor (.presign body), answer⟩ : Exchange nodeCalls) ∈ past ∧
        agent.urlOf answer = .ok url

section Grants

variable (parties : Parties) (env : Environment) (first : ℕ)

/-- The URL was told before in answer to a request for this transfer of this object, no longer ago
than a URL is valid. -/
def Granted (events : NodeTrace) (op : PresignOp) (key : ObjectKey) (url : String) (place : ℕ) :
    Prop :=
  ∃ (told index : ℕ) (body : String) (answer : Except String Response) (req : PresignRequest),
    told < place ∧ events[told]? = some (index, ⟨.anchor (.presign body), answer⟩) ∧
      parties.agent.urlOf answer = .ok url ∧ parties.requestOf body = some req ∧ req.op = op ∧
        parties.presigner.anchor.shardKey req.ref = key ∧
          (env.clock (first + place)).seconds ≤
            (env.clock (first + told)).seconds + ttlSecs.toNat

/-- Whoever among these uses a URL which opens something has it from the coordinator, whichever
of all the coordinator told it to. -/
def Unforged (users : ℕ → Prop) (events : NodeTrace) : Prop :=
  ∀ place index call answer transfer url, users index →
    events[place]? = some (index, ⟨.anchor call, answer⟩) →
      call.transfer? = some (transfer, url) →
        (parties.presigner.urls.opens transfer url (env.clock (first + place)).seconds).isSome →
          ∃ told < place, ∃ teller body answer',
            events[told]? = some (teller, ⟨.anchor (.presign body), answer'⟩) ∧
              parties.agent.urlOf answer' = .ok url

/-- How an object came to be what it is. -/
inductive ObjectOrigin (bucket : Bucket) (events : NodeTrace) (key : ObjectKey) :
    Option Bytes → Prop where
  | kept : ObjectOrigin bucket events key (bucket.lookup key)
  | uploaded {place index : ℕ} {url : String} {bytes : Bytes} {answer : Except String ℕ}
      (found : events[place]? = some (index, ⟨.anchor (.upload url bytes), answer⟩))
      (granted : Granted parties env first events .put key url place) :
      ObjectOrigin bucket events key (some bytes)
  | deleted {place index : ℕ} {body : String} {answer : Except String Response}
      {req : DeleteBlobRequest}
      (found : events[place]? = some (index, ⟨.anchor (.deleteBlob body), answer⟩))
      (asked : parties.requestOf body = some req)
      (below : parties.presigner.anchor.blobFront req.ns req.blobId <+: key) :
      ObjectOrigin bucket events key none

end Grants

section Steps

variable {parties : Parties} {env : Environment} {first : ℕ} {state : World Bucket}
  {events grown : NodeTrace}

/-! ## Any body -/

namespace Parties

/-- A body is refused, or read and handed to the handler. -/
theorem post_cases {endpoint : Endpoint} {ρ : Type} [Serde ρ] {handler : ρ → UseCase Response}
    (accepted : ∀ json, parties.coordinator.accepted endpoint json =
      parties.server.acceptBody json handler) (body : String) :
    (∃ resp, resp.isSuccess = false ∧ parties.coordinator.post endpoint body = pure resp) ∨
      ∃ req, parties.requestOf body = some req ∧
        parties.coordinator.post endpoint body = handler req := by
  rw [Coordinator.post, requestOf, show parties.coordinator.words = parties.server.words from rfl]
  split
  · exact Or.inl ⟨_, rfl, rfl⟩
  · cases read : parties.server.words.parseFront body with
    | none => exact Or.inl ⟨_, rfl, rfl⟩
    | some json =>
        dsimp only
        cases entries endpoint.bodyFields json with
        | none => exact Or.inl ⟨_, rfl, rfl⟩
        | some fields =>
            dsimp only
            rw [accepted, Coordinator.acceptBody]
            cases built : (fromJson json : Option ρ) with
            | none => exact Or.inl ⟨_, rfl, rfl⟩
            | some req => exact Or.inr ⟨req, built, rfl⟩

theorem respond_cases {path : String} {endpoint : Endpoint} {ρ : Type} [Serde ρ]
    {handler : ρ → UseCase Response}
    (dispatched : dispatch parties.matching routes .post (parties.matching.parsePath path) =
      .ok endpoint)
    (posts : ∀ body, parties.coordinator.serve body endpoint =
      parties.coordinator.post endpoint body)
    (accepted : ∀ json, parties.coordinator.accepted endpoint json =
      parties.server.acceptBody json handler) (body : String) :
    (∃ resp, resp.isSuccess = false ∧
        parties.coordinator.respond parties.matching .post path body = pure resp) ∨
      ∃ req, parties.requestOf body = some req ∧
        parties.coordinator.respond parties.matching .post path body = handler req := by
  rw [Coordinator.respond, dispatched]
  split
  · exact Or.inl ⟨_, rfl, rfl⟩
  · dsimp only
    rw [posts]
    exact post_cases accepted body

/-- The coordinator signs what it is asked for, and leaves the objects alone. -/
theorem ask_presign_cases (body : String) (state : World Bucket) :
    (parties.ask env "/v1/anchor/presign" body state).2.anchor = state.anchor ∧
      ∀ url, parties.agent.urlOf (parties.ask env "/v1/anchor/presign" body state).1 = .ok url →
        ∃ req : PresignRequest, parties.requestOf body = some req ∧
          parties.presigner.urls.sign req.op.method (parties.presigner.anchor.shardKey req.ref)
            (env.clock state.tick).seconds ttlSecs.toNat = .ok url := by
  rcases respond_cases (dispatch_presign parties.matching) (fun _ => rfl) (fun _ => rfl) body with
    ⟨resp, failed, responded⟩ | ⟨req, read, responded⟩
  · rw [ask_of_pure responded]
    refine ⟨rfl, ?_⟩
    intro url told
    rw [urlOf_of_failed failed] at told
    cases told
  · have asked : parties.ask env "/v1/anchor/presign" body state =
        (.ok (jsonResponse parties.server.words (parties.signed env req.ref req.op state.tick)),
          state.waited) :=
      ask_of_presign req responded
    rw [asked]
    refine ⟨rfl, ?_⟩
    intro url told
    cases outcome : parties.signed env req.ref req.op state.tick with
    | ok reply =>
        rw [outcome, urlOf_reply] at told
        rcases Except.ok.inj told with rfl
        exact ⟨req, read, signed_eq_ok outcome⟩
    | error error =>
        rcases signed_eq_error outcome with ⟨reason, -, rfl⟩
        rw [outcome] at told
        dsimp only [jsonResponse] at told
        rw [urlOf_of_failed (err_not_success _ _)] at told
        cases told

/-- The coordinator deletes what it is asked to delete, and nothing else. -/
theorem ask_deleteBlob_cases (body : String) (state : World Bucket) :
    (parties.ask env "/v1/anchor/delete-blob" body state).2.anchor = state.anchor ∨
      ∃ req : DeleteBlobRequest, parties.requestOf body = some req ∧
        (parties.ask env "/v1/anchor/delete-blob" body state).2.anchor =
          (parties.presigner.anchor.deleteBlob state.anchor req.ns req.blobId).2 := by
  rcases respond_cases (dispatch_deleteBlob parties.matching) (fun _ => rfl) (fun _ => rfl) body
    with ⟨resp, failed, responded⟩ | ⟨req, read, responded⟩
  · left
    rw [ask_of_pure responded]
    rfl
  · refine Or.inr ⟨req, read, ?_⟩
    rw [ask_of_deleteAnchored req responded]
    rfl

/-! ## One request -/

theorem met_anchor (call : AnchorCall) (state : World Bucket) :
    (parties.met env call state (parties.outages state.tick)).2.anchor = state.anchor ∨
      (parties.met env call state (parties.outages state.tick)).2.anchor =
        (parties.serve env call state).2.anchor := by
  cases parties.outages state.tick with
  | none => exact Or.inr rfl
  | some outage =>
      cases outage with
      | lost reason => exact Or.inr rfl
      | refused status failed => exact Or.inl rfl
      | unreached reason => exact Or.inl rfl

theorem store_anchor (url : String) (bytes : Bytes) (state : World Bucket) :
    (parties.store env url bytes state).2.anchor = state.anchor ∨
      ∃ key, parties.presigner.urls.opens .put url (env.clock state.tick).seconds = some key ∧
        (parties.store env url bytes state).2.anchor = state.anchor.insert key bytes := by
  rw [store]
  cases opened : parties.presigner.urls.opens .put url (env.clock state.tick).seconds with
  | none => exact Or.inl rfl
  | some key =>
      dsimp only [ObjectService.put]
      cases parties.presigner.anchor.service.refusal (.put key) with
      | none => exact Or.inr ⟨key, rfl, rfl⟩
      | some reason => exact Or.inl rfl

theorem load_anchor (url : String) (state : World Bucket) :
    (parties.load env url state).2 = state.waited := by
  rw [load]
  cases parties.presigner.urls.opens .get url (env.clock state.tick).seconds with
  | none => rfl
  | some key =>
      dsimp only
      split <;> rfl

/-- All that a request can do to the objects. -/
theorem anchor_cases (call : AnchorCall) (state : World Bucket) :
    (parties.met env call state (parties.outages state.tick)).2.anchor = state.anchor ∨
      (∃ url bytes key, call = .upload url bytes ∧
        parties.presigner.urls.opens .put url (env.clock state.tick).seconds = some key ∧
          (parties.met env call state (parties.outages state.tick)).2.anchor =
            state.anchor.insert key bytes) ∨
      ∃ (body : String) (req : DeleteBlobRequest), call = .deleteBlob body ∧
        parties.requestOf body = some req ∧
          (parties.met env call state (parties.outages state.tick)).2.anchor =
            (parties.presigner.anchor.deleteBlob state.anchor req.ns req.blobId).2 := by
  rcases met_anchor call state with same | served
  · exact Or.inl same
  rw [served]
  cases call with
  | presign body => exact Or.inl (ask_presign_cases body state).1
  | download url =>
      left
      rw [serve, load_anchor]
      rfl
  | upload url bytes =>
      rcases store_anchor url bytes state with same | ⟨key, opened, inserted⟩
      · exact Or.inl same
      · exact Or.inr (Or.inl ⟨url, bytes, key, rfl, opened, inserted⟩)
  | deleteBlob body =>
      rcases ask_deleteBlob_cases body state with same | ⟨req, read, removed⟩
      · exact Or.inl same
      · exact Or.inr (Or.inr ⟨body, req, rfl, read, removed⟩)

/-- Bytes are read through a URL which opens an object. -/
theorem opens_of_download {url : String} {status : ℕ} {bytes : Bytes}
    (heard : (parties.met env (.download url) state (parties.outages state.tick)).1 =
      .ok (status, bytes)) (success : PresignedBlobAnchor.isSuccess status = true) :
    (parties.presigner.urls.opens .get url (env.clock state.tick).seconds).isSome := by
  rcases met_fst (.download url) with ⟨-, same⟩ | ⟨-, ⟨reason, same⟩ | ⟨code, failed, same⟩⟩
  · rw [same, serve, load] at heard
    cases opened : parties.presigner.urls.opens .get url (env.clock state.tick).seconds with
    | some key => rfl
    | none =>
        rw [opened] at heard
        rcases Prod.mk.inj (Except.ok.inj heard) with ⟨rfl, -⟩
        cases success
  · rw [same] at heard
    cases heard
  · rw [same] at heard
    rcases Prod.mk.inj (Except.ok.inj heard) with ⟨rfl, -⟩
    rw [failed] at success
    cases success

end Parties

theorem RustFsBlobAnchor.lookup_deleteBlob (anchor : RustFsBlobAnchor) (bucket : Bucket)
    (ns : NamespaceId) (blobId : BlobId) (key : ObjectKey) :
    (anchor.deleteBlob bucket ns blobId).2.lookup key = bucket.lookup key ∨
      (anchor.deleteBlob bucket ns blobId).2.lookup key = none ∧
        anchor.blobFront ns blobId <+: key := by
  rw [deleteBlob, deleteBelow]
  cases anchor.service.refusal (.list (anchor.blobFront ns blobId)) with
  | some reason => exact Or.inl rfl
  | none =>
      dsimp only
      rcases anchor.deleteEach_run (anchor.service.listed bucket (anchor.blobFront ns blobId))
        bucket with ⟨gone, listed, lookup, -⟩
      rw [lookup]
      split
      · next deleted =>
          exact Or.inr ⟨rfl, (ObjectService.mem_listed.mp (listed.subset deleted)).2.1⟩
      · exact Or.inl rfl

/-! ## Runs -/

theorem Granted.mono {op : PresignOp} {key : ObjectKey} {url : String} {place : ℕ}
    (granted : Granted parties env first events op key url place) (longer : events <+: grown) :
    Granted parties env first grown op key url place := by
  rcases granted with ⟨told, index, body, answer, req, before, found, rest⟩
  exact ⟨told, index, body, answer, req, before, getElem?_of_longer longer found, rest⟩

theorem ObjectOrigin.mono {bucket : Bucket} {key : ObjectKey} {object : Option Bytes}
    (origin : ObjectOrigin parties env first bucket events key object)
    (longer : events <+: grown) : ObjectOrigin parties env first bucket grown key object := by
  cases origin with
  | kept => exact .kept
  | uploaded found granted =>
      exact .uploaded (getElem?_of_longer longer found) (granted.mono longer)
  | deleted found asked below => exact .deleted (getElem?_of_longer longer found) asked below

/-- What is known of a run so far. -/
structure Sound (parties : Parties) (env : Environment) (first state : World Bucket)
    (events : NodeTrace) : Prop where
  time : state.tick = first.tick + events.length
  signed : ∀ place index body answer url,
    events[place]? = some (index, ⟨.anchor (.presign body), answer⟩) →
      parties.agent.urlOf answer = .ok url →
        ∃ req : PresignRequest, parties.requestOf body = some req ∧
          parties.presigner.urls.sign req.op.method (parties.presigner.anchor.shardKey req.ref)
            (env.clock (first.tick + place)).seconds ttlSecs.toNat = .ok url
  objects : ∀ key, ObjectOrigin parties env first.tick first.anchor events key
    (state.anchor.lookup key)
  reads : ∀ place index url status bytes,
    events[place]? = some (index, ⟨.anchor (.download url), .ok (status, bytes)⟩) →
      PresignedBlobAnchor.isSuccess status = true →
        ∃ key, Granted parties env first.tick events .get key url place

variable {start : World Bucket} {whole : NodeTrace} {index : ℕ}

/-- A URL which is used and not forged was granted. -/
theorem Sound.granted (sound : Sound parties env start state events)
    (unforged : Unforged parties env start.tick (fun _ => True) whole) {call : AnchorCall}
    {answer : Except String call.Reply} {op : PresignOp} {url : String} {key : ObjectKey}
    (longer : events ++ [(index, ⟨.anchor call, answer⟩)] <+: whole)
    (used : call.transfer? = some (op.method, url))
    (opened : parties.presigner.urls.opens op.method url (env.clock state.tick).seconds =
      some key) :
    Granted parties env start.tick (events ++ [(index, ⟨.anchor call, answer⟩)]) op key url
      events.length := by
  have found : whole[events.length]? = some (index, ⟨.anchor call, answer⟩) :=
    getElem?_of_longer longer (List.getElem?_concat_length ..)
  rw [sound.time] at opened
  rcases unforged _ _ _ _ _ _ trivial found used (by rw [opened]; rfl) with
    ⟨told, before, teller, body, answer', heard, urlTold⟩
  have foundBefore : events[told]? = some (teller, ⟨.anchor (.presign body), answer'⟩) := by
    rw [← heard]
    rcases longer with ⟨rest, rfl⟩
    rw [List.append_assoc, List.getElem?_append_left before]
  rcases sound.signed _ _ _ _ _ foundBefore urlTold with ⟨req, read, signed⟩
  rcases parties.presigner.urls.sign_of_opens _ _ _ _ _ _ _ _ signed opened with
    ⟨sameMethod, rfl, inTime⟩
  have sameOp : req.op = op := by
    revert sameMethod
    cases req.op <;> cases op <;> decide
  exact ⟨told, teller, body, answer', req, before,
    getElem?_of_longer (List.prefix_append _ _) foundBefore, urlTold, read, sameOp, rfl, inTime⟩

theorem Parties.met_tick (call : AnchorCall) (state : World Bucket) :
    (parties.met env call state (parties.outages state.tick)).2.tick = state.tick + 1 := by
  have served : (parties.serve env call state).2.tick = state.tick + 1 := by
    cases call with
    | presign body => rfl
    | deleteBlob body => rfl
    | upload url bytes =>
        rw [serve, store]
        split
        · rfl
        · split <;> rfl
    | download url =>
        rw [serve, load_anchor]
        rfl
  cases parties.outages state.tick with
  | none => exact served
  | some outage =>
      cases outage with
      | lost reason => exact served
      | refused status failed => rfl
      | unreached reason => rfl

theorem anchor_after_of_other {anchors : AnchorModel Bucket} {call : PortCall}
    (other : call.isAnchor = false) : (state.after anchors call).anchor = state.anchor := by
  cases call <;> first | rfl | cases other

/-- After another event: only what it adds is left to be accounted for. -/
theorem Sound.step {next : World Bucket} (sound : Sound parties env start state events)
    {event : ℕ × Exchange nodeCalls} (ticked : next.tick = state.tick + 1)
    (signed : ∀ body answer url, event.2 = ⟨.anchor (.presign body), answer⟩ →
      parties.agent.urlOf answer = .ok url →
        ∃ req : PresignRequest, parties.requestOf body = some req ∧
          parties.presigner.urls.sign req.op.method (parties.presigner.anchor.shardKey req.ref)
            (env.clock state.tick).seconds ttlSecs.toNat = .ok url)
    (objects : ∀ key, next.anchor.lookup key = state.anchor.lookup key ∨
      ObjectOrigin parties env start.tick start.anchor (events ++ [event]) key
        (next.anchor.lookup key))
    (reads : ∀ url status bytes, event.2 = ⟨.anchor (.download url), .ok (status, bytes)⟩ →
      PresignedBlobAnchor.isSuccess status = true →
        ∃ key, Granted parties env start.tick (events ++ [event]) .get key url events.length) :
    Sound parties env start next (events ++ [event]) := by
  constructor
  · rw [ticked, sound.time, List.length_append, List.length_singleton, Nat.add_assoc]
  · intro place index body answer url found told
    rcases getElem?_concat_cases found with before | ⟨rfl, rfl⟩
    · exact sound.signed place index body answer url before told
    · rw [← sound.time]
      exact signed body answer url rfl told
  · intro key
    rcases objects key with same | origin
    · rw [same]
      exact (sound.objects key).mono (List.prefix_append _ _)
    · exact origin
  · intro place index url status bytes found success
    rcases getElem?_concat_cases found with before | ⟨rfl, rfl⟩
    · rcases sound.reads place index url status bytes before success with ⟨key, granted⟩
      exact ⟨key, granted.mono (List.prefix_append _ _)⟩
    · exact reads url status bytes rfl success

/-- A URL which is told was signed for what the body asks for. -/
theorem Parties.signed_of_told {body url : String}
    (told : parties.agent.urlOf
      (parties.met env (.presign body) state (parties.outages state.tick)).1 = .ok url) :
    ∃ req : PresignRequest, parties.requestOf body = some req ∧
      parties.presigner.urls.sign req.op.method (parties.presigner.anchor.shardKey req.ref)
        (env.clock state.tick).seconds ttlSecs.toNat = .ok url := by
  rcases met_fst (.presign body) with ⟨-, same⟩ | ⟨-, ⟨reason, same⟩ | ⟨code, failed, same⟩⟩
  · rw [same] at told
    exact (ask_presign_cases body state).2 url told
  · rw [same] at told
    cases told
  · rw [same] at told
    have refused : parties.agent.urlOf (.ok ⟨code, ""⟩) = .error _ := urlOf_of_failed failed
    cases told.symm.trans refused

theorem Sound.port (sound : Sound parties env start state events) {call : PortCall}
    (other : call.isAnchor = false) {answer : call.Answer} :
    Sound parties env start (state.after parties.presigner.anchor.model call)
      (events ++ [(index, ⟨.port call, answer⟩)]) := by
  refine sound.step rfl ?_ ?_ ?_
  · rintro body answer url ⟨⟩
  · intro key
    rw [anchor_after_of_other other]
    exact Or.inl rfl
  · rintro url status bytes ⟨⟩

theorem Sound.anchor (sound : Sound parties env start state events)
    (unforged : Unforged parties env start.tick (fun _ => True) whole) (call : AnchorCall)
    (longer : events ++ [(index, ⟨.anchor call,
      (parties.met env call state (parties.outages state.tick)).1⟩)] <+: whole) :
    Sound parties env start (parties.met env call state (parties.outages state.tick)).2
      (events ++ [(index, ⟨.anchor call,
        (parties.met env call state (parties.outages state.tick)).1⟩)]) := by
  have now := List.getElem?_concat_length (l := events)
    (a := (index, ⟨.anchor call, (parties.met env call state (parties.outages state.tick)).1⟩))
  refine sound.step (Parties.met_tick call state) ?_ ?_ ?_
  · rintro body answer url ⟨⟩ told
    exact Parties.signed_of_told told
  · intro key
    rcases Parties.anchor_cases call state with
      same | ⟨url, bytes, target, rfl, opened, inserted⟩ | ⟨body, req, rfl, asked, removed⟩
    · rw [same]
      exact Or.inl rfl
    · rw [inserted]
      by_cases here : key = target
      · subst here
        rw [AList.lookup_insert]
        exact Or.inr (.uploaded now (sound.granted unforged longer rfl opened))
      · rw [AList.lookup_insert_ne here]
        exact Or.inl rfl
    · rw [removed]
      rcases parties.presigner.anchor.lookup_deleteBlob state.anchor req.ns req.blobId key with
        same | ⟨gone, below⟩
      · exact Or.inl same
      · rw [gone]
        exact Or.inr (.deleted now asked below)
  · intro url status bytes same success
    cases call with
    | download url' =>
        rcases Sigma.mk.inj same with ⟨sameCall, sameAnswer⟩
        cases sameCall
        have opens := Parties.opens_of_download (eq_of_heq sameAnswer) success
        rcases Option.isSome_iff_exists.mp opens with ⟨key, opened⟩
        exact ⟨key, sound.granted unforged longer rfl opened⟩
    | _ => cases same

end Steps

/-! ## Nodes -/

namespace PresignedBlobAnchor

theorem obeys_through {α : Type} (agent : PresignedBlobAnchor) {body : String}
    {answer : Except String Response} {use : String → AnchorCall}
    {decode : (url : String) → Except String (use url).Reply → PortResult α}
    {past : List (Exchange nodeCalls)} {op : Transfer}
    (uses : ∀ url, (use url).transfer? = some (op, url))
    (asked : (⟨.anchor (.presign body), answer⟩ : Exchange nodeCalls) ∈ past) :
    (through use decode (agent.urlOf answer)).Obeys agent.Honest past fun _ _ => True := by
  cases told : agent.urlOf answer with
  | error error => trivial
  | ok url =>
      refine ⟨?_, fun _ => trivial⟩
      intro transfer other used
      rcases Prod.mk.inj (Option.some.inj ((uses url).symm.trans used)) with ⟨rfl, rfl⟩
      exact ⟨body, answer, asked, told⟩

/-- However a call of a use-case is carried out, no credentials are needed for it. -/
theorem obeys_carry (agent : PresignedBlobAnchor) (request : PortCall)
    (past : List (Exchange nodeCalls)) :
    (agent.carry request).Obeys agent.Honest past fun _ _ => True := by
  cases request with
  | putShard ref bytes =>
      rw [carry, putShard_eq]
      refine ⟨by rintro _ _ ⟨⟩, fun answer => ?_⟩
      exact agent.obeys_through (fun _ => rfl)
        (List.mem_append_right _ (List.mem_singleton_self _))
  | getShard ref =>
      rw [carry, getShard_eq]
      refine ⟨by rintro _ _ ⟨⟩, fun answer => ?_⟩
      exact agent.obeys_through (fun _ => rfl)
        (List.mem_append_right _ (List.mem_singleton_self _))
  | deleteBlob ns blobId => exact ⟨by rintro _ _ ⟨⟩, fun _ => trivial⟩
  | _ => exact ⟨rfl, fun _ => trivial⟩

end PresignedBlobAnchor

/-- What the programs of a run may do: the first ones are nodes, and the others are anybody's. -/
def credentials (agent : PresignedBlobAnchor) (nodes index : ℕ) (past : List (Exchange nodeCalls))
    (call : NodeCall) : Prop :=
  if index < nodes then agent.Honest past call else call.Uncredentialed

theorem uncredentialed_of_credentials {agent : PresignedBlobAnchor} {nodes index : ℕ}
    {past : List (Exchange nodeCalls)} {call : PortCall}
    (permitted : credentials agent nodes index past (.port call)) : call.isAnchor = false := by
  rw [credentials] at permitted
  split at permitted <;> exact permitted

/-- Nodes forge nothing. -/
theorem unforged_of_lawful {parties : Parties} {env : Environment} {first nodes : ℕ}
    {events : NodeTrace} (lawful : System.Lawful (credentials parties.agent nodes) events)
    (others : Unforged parties env first (nodes ≤ ·) events) :
    Unforged parties env first (fun _ => True) events := by
  intro place index call answer transfer url _ found used opens
  rcases Nat.lt_or_ge index nodes with node | stranger
  · rcases List.getElem?_eq_some_iff.mp found with ⟨inside, same⟩
    have split : events = events.take place ++
        (index, (⟨.anchor call, answer⟩ : Exchange nodeCalls)) :: events.drop (place + 1) := by
      rw [← same, List.getElem_cons_drop, List.take_append_drop]
    have permitted := lawful _ _ _ _ split
    rw [credentials, if_pos node] at permitted
    rcases permitted transfer url used with ⟨body, answer', present, told⟩
    rcases List.getElem?_of_mem (mem_pastOf.mp present) with ⟨earlier, there⟩
    have before : earlier < place :=
      lt_of_lt_of_le (List.getElem?_eq_some_iff.mp there).1 (List.length_take_le _ _)
    rw [List.getElem?_take_of_lt before] at there
    exact ⟨earlier, before, index, body, answer', there, told⟩
  · exact others _ _ _ _ _ _ stranger found used opens

/-- Nodes run any use-cases, and anyone else sends any requests, in any order. If the others do
not forge URLs, then each object is in the store because it was there before or was uploaded with
a URL that the coordinator signed for it shortly before; what is gone was deleted by the
coordinator on request; and no bytes are read but with such a URL. -/
theorem objects_only_by_grant (parties : Parties) (env : Environment) (first : World Bucket)
    (nodes : List (UseCase Unit)) {others : List (NodeProgram Unit)}
    (without : ∀ program ∈ others,
      program.Obeys (fun _ => NodeCall.Uncredentialed) [] fun _ _ => True)
    (schedule : List ℕ) :
    let run := System.exec (presignedWorld parties env)
      (System.start first (nodes.map (Program.carriedOut parties.agent.carry) ++ others)) schedule
    Unforged parties env first.tick (nodes.length ≤ ·) run.trace →
      (∀ key, ObjectOrigin parties env first.tick first.anchor run.trace key
          (run.state.anchor.lookup key)) ∧
        ∀ place index url status bytes,
          run.trace[place]? = some (index, ⟨.anchor (.download url), .ok (status, bytes)⟩) →
            PresignedBlobAnchor.isSuccess status = true →
              ∃ key, Granted parties env first.tick run.trace .get key url place := by
  intro run unforged
  have obedient : System.Obedient (credentials parties.agent nodes.length)
      (System.start first (nodes.map (Program.carriedOut parties.agent.carry) ++ others)) := by
    apply System.obedient_start
    intro index program found
    rcases Nat.lt_or_ge index nodes.length with node | stranger
    · rw [List.getElem?_append_left (by simpa using node), List.getElem?_map] at found
      rcases Option.map_eq_some_iff.mp found with ⟨useCase, -, rfl⟩
      refine (Program.obeys_carriedOut parties.agent.obeys_carry useCase []).weaken ?_
      intro past call permitted
      rw [credentials, if_pos node]
      exact permitted
    · rw [List.getElem?_append_right (by simpa using stranger)] at found
      refine (without program (List.mem_of_getElem? found)).weaken ?_
      intro past call permitted
      rw [credentials, if_neg (Nat.not_lt.mpr stranger)]
      exact permitted
  have honest : Unforged parties env first.tick (fun _ => True) run.trace :=
    unforged_of_lawful (obedient.run schedule).lawful unforged
  let kept : World Bucket → NodeTrace → Prop := fun state events =>
    events <+: run.trace → Sound parties env first state events
  have initial : Sound parties env first first [] := by
    refine ⟨rfl, ?_, fun key => .kept, ?_⟩ <;>
      rintro _ _ _ _ _ ⟨⟩
  have sound : kept run.state run.trace := by
    refine (obedient.exec (fun _ => initial : kept _ _) ?_ schedule).2
    intro state events index call _ sound permitted longer
    have before := sound ((List.prefix_append _ _).trans longer)
    cases call with
    | port call => exact before.port (uncredentialed_of_credentials permitted)
    | anchor call => exact before.anchor honest call longer
  rcases sound (List.prefix_refl _) with ⟨-, -, objects, reads⟩
  exact ⟨objects, reads⟩

/-- Somebody who makes up a URL. -/
def intruder : NodeProgram Unit :=
  .call (.anchor (.upload "" [9])) fun _ => .done (.ok ())

def visitedPut : System nodeCalls Failure (World Bucket) :=
  System.exec (presignedWorld sampleParties sampleEnvironment)
    (System.start bucketWorld
      ([(samplePut 7).program replicatingNode].map (Program.carriedOut sampleParties.agent.carry) ++
        [intruder]))
    (List.replicate 12 0 ++ [1])

theorem objects_only_by_grant_visited : ∃ url place,
    Granted sampleParties sampleEnvironment bucketWorld.tick visitedPut.trace .put
      (bucketAnchor.shardKey ⟨⟨"ns-1"⟩, ⟨"blob-5"⟩, 1⟩) url place := by
  have stored : visitedPut.state.anchor.lookup
      (bucketAnchor.shardKey ⟨⟨"ns-1"⟩, ⟨"blob-5"⟩, 1⟩) = some [7] := by
    decide +kernel
  have calls : ∀ pair ∈ visitedPut.trace.map fun event => (event.1, event.2.1),
      1 ≤ pair.1 → pair.2 = .anchor (.upload "" [9]) := by
    decide +kernel
  have without : ∀ program ∈ [intruder],
      program.Obeys (fun _ => NodeCall.Uncredentialed) [] fun _ _ => True := by
    rintro _ (- | ⟨-, ⟨⟩⟩)
    exact ⟨trivial, fun _ => trivial⟩
  have unforged : Unforged sampleParties sampleEnvironment bucketWorld.tick (1 ≤ ·)
      visitedPut.trace := by
    intro place index call answer transfer url stranger found used opens
    have same := calls _ (List.mem_map_of_mem (List.mem_of_getElem? found)) stranger
    rcases NodeCall.anchor.inj same with rfl
    rcases Prod.mk.inj (Option.some.inj used) with ⟨rfl, rfl⟩
    cases opens
  rw [visitedPut] at stored unforged
  have origin := (objects_only_by_grant sampleParties sampleEnvironment bucketWorld
    [(samplePut 7).program replicatingNode] without (List.replicate 12 0 ++ [1]) unforged).1
    (bucketAnchor.shardKey ⟨⟨"ns-1"⟩, ⟨"blob-5"⟩, 1⟩)
  rw [stored, ← visitedPut] at origin
  generalize held : some ([7] : Bytes) = object at origin
  cases origin with
  | kept => cases held
  | uploaded found granted => exact ⟨_, _, granted⟩
  | deleted found asked below => cases held

end VaultMesh
