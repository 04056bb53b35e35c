import VaultMesh.Perimeter

/-!
# Escalation

What the responder and the ledger hold is what the calls made so far say: a
fingerprint is blocked if it was assessed often enough, the decisions escalate at
the limit, and the ledger has one entry for every record entered. A guard enters
one record if its request was rejected, a simulation one for every strike, so the
ledger can be counted from what the guards and the simulations did. This holds
however their calls interleave.
-/

namespace VaultMesh

open Interaction

namespace Perimeter

variable {outside : Outside} {sha256 : Bytes → Digest} {limit : ℕ} {shared : Shared}
  {trace : List (ℕ × Made)}

/-! ## One call -/

theorem assessedIn_append (trace : List (ℕ × Made)) (last : ℕ × Made) :
    assessedIn (trace ++ [last]) = assessedIn trace ++ (struck last.2).toList := by
  rw [assessedIn, assessedIn, List.filterMap_append]
  cases outcome : struck last.2 <;> simp [outcome]

theorem enteredIn_append (trace : List (ℕ × Made)) (last : ℕ × Made) :
    enteredIn (trace ++ [last]) = enteredIn trace ++ (entered last.2).toList := by
  rw [enteredIn, enteredIn, List.filterMap_append]
  cases outcome : entered last.2 <;> simp [outcome]

/-- The responder's answer to a call is the one which the calls before it ask for. -/
def Answered (limit : ℕ) (before : List (ℕ × Made)) : Made → Prop
  | ⟨.isBlocked fingerprint, answer⟩ =>
      answer = decide (limit ≤ (assessedIn before).count fingerprint)
  | ⟨.assess signalFingerprint _, decision⟩ =>
      decision = EscalatingThreatResponder.verdict limit (assessedIn before) signalFingerprint
  | _ => True

/-- The shared state is the one which the calls made so far lead to. -/
structure Watched (sha256 : Bytes → Digest) (limit : ℕ) (shared : Shared)
    (trace : List (ℕ × Made)) : Prop where
  tallies : shared.responder.Tallies limit (assessedIn trace)
  verified : shared.ledger.verify sha256 = true
  records : shared.ledger.entries.map LedgerEntry.record = enteredIn trace
  answered : ∀ before event after, trace = before ++ event :: after →
    Answered limit before event.2

theorem watched_new (blockAfter : UInt32) (sha256 : Bytes → Digest) :
    Watched sha256 (max blockAfter.toNat 1) (.new blockAfter) [] where
  tallies := EscalatingThreatResponder.tallies_new blockAfter
  verified := rfl
  records := rfl
  answered := by simp

/-- A call which neither strikes nor enters anything. -/
theorem Watched.append (watched : Watched sha256 limit shared trace) {last : ℕ × Made}
    (unstruck : struck last.2 = none) (unentered : entered last.2 = none)
    (answered : Answered limit trace last.2) (tick : ℕ) :
    Watched sha256 limit { shared with tick := tick } (trace ++ [last]) where
  tallies := by
    rw [assessedIn_append, unstruck]
    simpa using watched.tallies
  verified := watched.verified
  records := by
    rw [enteredIn_append, unentered]
    simpa using watched.records
  answered := forall_split_append watched.answered answered

theorem Watched.assess (watched : Watched sha256 limit shared trace) (index : ℕ)
    (signalFingerprint attackClass : String) (tick : ℕ) :
    Watched sha256 limit
      { shared with
        responder := (shared.responder.assess signalFingerprint attackClass).2, tick := tick }
      (trace ++ [(index, ⟨.assess signalFingerprint attackClass,
        (shared.responder.assess signalFingerprint attackClass).1⟩)]) := by
  rcases watched.tallies.assess signalFingerprint attackClass with ⟨decision, tallies⟩
  refine ⟨?_, watched.verified, ?_, forall_split_append watched.answered decision⟩
  · rw [assessedIn_append]
    exact tallies
  · rw [enteredIn_append]
    exact watched.records.trans (List.append_nil _).symm

theorem Watched.record (watched : Watched sha256 limit shared trace) (index : ℕ)
    {entry : IntrusionRecord} {grown : LedgerIntrusionSink}
    (appended : shared.ledger.append sha256 entry = .ok grown) (tick : ℕ) :
    Watched sha256 limit { shared with ledger := grown, tick := tick }
      (trace ++ [(index, ⟨.record entry, .ok ()⟩)]) := by
  refine ⟨?_, LedgerIntrusionSink.append_verifies appended watched.verified, ?_,
    forall_split_append watched.answered trivial⟩
  · rw [assessedIn_append]
    change shared.responder.Tallies limit (assessedIn trace ++ [])
    rw [List.append_nil]
    exact watched.tallies
  · rw [enteredIn_append, LedgerIntrusionSink.append_ok appended, List.map_append,
      watched.records]
    rfl

/-- Whatever is called next, the shared state goes along. -/
theorem Watched.answer (watched : Watched sha256 limit shared trace) (outside : Outside)
    (index : ℕ) (call : Call) :
    Watched sha256 limit ((perimeter outside sha256).answer shared call).2
      (trace ++ [(index, ⟨call, ((perimeter outside sha256).answer shared call).1⟩)]) := by
  cases call with
  | assess signalFingerprint attackClass => exact watched.assess index _ _ _
  | record entry =>
      simp only [perimeter, Shared.answer]
      cases appended : shared.ledger.append sha256 entry with
      | ok grown => exact watched.record index appended _
      | error failure =>
          rcases LedgerIntrusionSink.append_error appended with rfl
          refine watched.append rfl rfl ?_ _
          exact trivial
  | isBlocked fingerprint =>
      refine watched.append rfl rfl ?_ _
      exact watched.tallies.isBlocked fingerprint
  | _ =>
      refine watched.append rfl rfl ?_ _
      exact trivial

/-! ## Whole runs -/

/-- The jobs, having taken turns as scheduled from a new perimeter on. -/
def run (outside : Outside) (sha256 : Bytes → Digest) (blockAfter : UInt32) (jobs : List Job)
    (schedule : List ℕ) : System calls Failure Shared :=
  System.exec (perimeter outside sha256)
    (System.start (.new blockAfter) (jobs.map Job.program)) schedule

section Runs

variable (outside : Outside) (sha256 : Bytes → Digest) (blockAfter : UInt32) (jobs : List Job)
  (schedule : List ℕ)

theorem run_watched :
    Watched sha256 (max blockAfter.toNat 1) (run outside sha256 blockAfter jobs schedule).state
      (run outside sha256 blockAfter jobs schedule).trace := by
  apply System.exec_invariant (fun system : System calls Failure Shared =>
    Watched sha256 (max blockAfter.toNat 1) system.state system.trace) schedule
  · exact watched_new blockAfter sha256
  · intro system index watched
    rcases System.step_cases (perimeter outside sha256) system index with
      same | ⟨call, rest, -, called⟩
    · rw [same]
      exact watched
    · rw [called]
      exact watched.answer outside index call

theorem run_append (earlier later : List ℕ) :
    (run outside sha256 blockAfter jobs earlier).trace <+:
      (run outside sha256 blockAfter jobs (earlier ++ later)).trace := by
  rw [run, run, System.exec_append]
  exact System.trace_prefix_exec _ _ later

variable {jobs} in
theorem guard_reaches {index : ℕ} {request : Incoming}
    (listed : jobs[index]? = some (.guard request)) :
    ∃ rest : Task Response,
      (run outside sha256 blockAfter jobs schedule).programs[index]? = some rest.void ∧
        (guard request).Reaches
          (pastOf index (run outside sha256 blockAfter jobs schedule).trace) rest := by
  apply System.exec_reaches_void
  rw [List.getElem?_map, listed]
  rfl

variable {jobs} in
theorem simulate_reaches {index : ℕ} {request : SimulateRequest}
    (listed : jobs[index]? = some (.simulate request)) :
    ∃ rest : Task SimulateResponse,
      (run outside sha256 blockAfter jobs schedule).programs[index]? = some rest.void ∧
        (perimeterSimulate request).Reaches
          (pastOf index (run outside sha256 blockAfter jobs schedule).trace) rest := by
  apply System.exec_reaches_void
  rw [List.getElem?_map, listed]
  rfl

end Runs

/-! ## Counting the ledger -/

/-- The guard with this number has returned, and its request was rejected. -/
def TurnedAway (jobs : List Job) (trace : List (ℕ × Made)) (index : ℕ) : Prop :=
  ∃ request, jobs[index]? = some (.guard request) ∧ Rejected request (pastOf index trace)

/-- The strikes which the simulation with this number is done with. -/
def simulatedStrikes (jobs : List Job) (trace : List (ℕ × Made)) (index : ℕ) : ℕ :=
  match jobs[index]? with
  | some (.simulate _) => entries (pastOf index trace)
  | _ => 0

section Counting

variable (outside : Outside) (sha256 : Bytes → Digest) (blockAfter : UInt32) (jobs : List Job)
  (schedule : List ℕ)

open Classical in
/-- What one job has entered. -/
theorem job_entries {index : ℕ} {job : Job} (listed : jobs[index]? = some job) :
    entries (pastOf index (run outside sha256 blockAfter jobs schedule).trace) =
      (if TurnedAway jobs (run outside sha256 blockAfter jobs schedule).trace index then 1 else 0) +
        simulatedStrikes jobs (run outside sha256 blockAfter jobs schedule).trace index := by
  cases job with
  | guard request =>
      rcases guard_reaches outside sha256 blockAfter schedule listed with ⟨rest, -, reaches⟩
      rw [guard_entries reaches]
      simp [TurnedAway, simulatedStrikes, listed]
  | simulate request => simp [TurnedAway, simulatedStrikes, listed]

open Classical in
theorem length_entries :
    (run outside sha256 blockAfter jobs schedule).state.ledger.entries.length =
      ((Finset.range jobs.length).filter
        (TurnedAway jobs (run outside sha256 blockAfter jobs schedule).trace)).card +
        ∑ index ∈ Finset.range jobs.length,
          simulatedStrikes jobs (run outside sha256 blockAfter jobs schedule).trace index := by
  have within : ∀ event ∈ (run outside sha256 blockAfter jobs schedule).trace,
      event.1 < jobs.length := by
    intro event present
    have bound := System.exec_indices _ _ _ _ event present
    simpa using bound
  have records := congrArg List.length (run_watched outside sha256 blockAfter jobs schedule).records
  rw [List.length_map] at records
  rw [records, enteredIn, length_filterMap_eq_sum entered within, Finset.card_filter,
    ← Finset.sum_add_distrib]
  apply Finset.sum_congr rfl
  intro index inside
  apply job_entries outside sha256 blockAfter jobs schedule
  exact List.getElem?_eq_getElem (Finset.mem_range.mp inside)

end Counting

/-! ## Refusals -/

theorem dropped_eq_error {answer : Except Failure Unit} {failure : Failure}
    (failed : dropped answer = .error failure) : ∃ message, failure = .panicked message := by
  cases answer with
  | ok done => cases failed
  | error error =>
      cases error with
      | port error => cases failed
      | panicked message => exact ⟨message, (Except.error.inj failed).symm⟩

/-- A guard which was not told that its caller is free runs no handler and returns a refusal. -/
theorem Stage.refuses {request : Incoming} {made : List Made}
    {result : Option (Except Failure Response)} (stage : Stage request made result)
    (unfree : (⟨.isBlocked (fingerprint request), false⟩ : Made) ∉ made) :
    (∀ other response, (⟨.handle other, response⟩ : Made) ∉ made) ∧
      (∀ response, result = some (.ok response) → response = refusal) ∧
      (∀ failure, result = some (.error failure) → ∃ message, failure = .panicked message) ∧
      (3 ≤ made.length → result ≠ none) := by
  cases stage with
  | arrived => simp
  | timed time => simp
  | stopped time => simp
  | refused time answer =>
      refine ⟨by simp, ?_, ?_, by simp⟩
      · intro response ended
        cases kept : dropped answer with
        | ok done =>
            rw [kept] at ended
            exact (Except.ok.inj (Option.some.inj ended)).symm
        | error failure =>
            rw [kept] at ended
            cases ended
      · intro failure ended
        cases kept : dropped answer with
        | ok done =>
            rw [kept] at ended
            cases ended
        | error other =>
            rw [kept] at ended
            rcases Except.error.inj (Option.some.inj ended) with rfl
            exact dropped_eq_error kept
  | _ => exact absurd (by simp) unfree

/-- A list which ends before an element ends before it in every longer list. -/
theorem prefix_of_notMem {α : Type} {front before after : List α} {element : α}
    (isPrefix : front <+: before ++ element :: after) (absent : element ∉ front) :
    front <+: before := by
  have upTo : before ++ [element] <+: before ++ element :: after := ⟨after, by simp⟩
  rcases List.prefix_or_prefix_of_prefix isPrefix upTo with shorter | longer
  · rcases List.prefix_concat_iff.mp shorter with same | within
    · exact absurd (by simp [same]) absent
    · exact within
  · exact absurd (longer.subset (by simp)) absent

/-- A fingerprint assessed often enough once is assessed often enough from then on. -/
theorem count_assessedIn_mono {earlier later : List (ℕ × Made)} (grown : earlier <+: later)
    (fingerprint : String) :
    (assessedIn earlier).count fingerprint ≤ (assessedIn later).count fingerprint := by
  apply List.Sublist.count_le
  exact (grown.filterMap _).sublist

section Refusals

variable (outside : Outside) (sha256 : Bytes → Digest) (blockAfter : UInt32) (jobs : List Job)

/-- The guard with this number refuses the request, as soon as it has had its turns. -/
structure Refuses (request : Incoming) (index : ℕ) (schedule : List ℕ) (trace : List (ℕ × Made)) :
    Prop where
  unserved : ∀ other response, ((index, ⟨.handle other, response⟩) : ℕ × Made) ∉ trace
  refusal : ∀ response,
    (guard request).Reaches (pastOf index trace) (.done (.ok response)) → response = refusal
  ends : 3 ≤ schedule.count index →
    (guard request).Reaches (pastOf index trace) (.done (.ok Perimeter.refusal)) ∨
      ∃ message, (guard request).Reaches (pastOf index trace) (.done (.error (.panicked message)))

variable {jobs} in
theorem guard_refuses (schedule : List ℕ) {index : ℕ} {request : Incoming}
    (listed : jobs[index]? = some (.guard request))
    (unfree : ((index, ⟨.isBlocked (fingerprint request), false⟩) : ℕ × Made) ∉
      (run outside sha256 blockAfter jobs schedule).trace) :
    Refuses request index schedule (run outside sha256 blockAfter jobs schedule).trace := by
  rcases guard_reaches outside sha256 blockAfter schedule listed with ⟨rest, current, reaches⟩
  rcases (stage_of_reaches reaches).refuses (fun told => unfree (mem_pastOf.mp told)) with
    ⟨unserved, refused, failed, long⟩
  refine ⟨fun other response present => unserved other response (mem_pastOf.mpr present), ?_, ?_⟩
  · intro response returned
    apply refused
    rw [reaches.unique returned]
    rfl
  · intro turns
    have program : (jobs.map Job.program)[index]? = some (guard request).void := by
      rw [List.getElem?_map, listed]
      rfl
    have finished : rest.result? ≠ none := by
      have taken : (∃ result,
            (run outside sha256 blockAfter jobs schedule).Ended index result) ∨
          schedule.count index ≤
            (pastOf index (run outside sha256 blockAfter jobs schedule).trace).length :=
        System.exec_turns program schedule
      rcases taken with ⟨result, ended⟩ | made
      · cases rest with
        | done _ => simp [Program.result?]
        | call call next => cases Option.some.inj (current.symm.trans ended)
      · exact long (turns.trans made)
    cases rest with
    | call call next => exact absurd rfl finished
    | done result =>
        cases result with
        | ok response =>
            left
            rw [← refused response rfl]
            exact reaches
        | error failure =>
            rcases failed failure rfl with ⟨message, rfl⟩
            exact Or.inr ⟨message, reaches⟩

end Refusals

/-! ## The perimeter over whole runs -/

open Classical in
/-- What holds in every run up to every point. -/
structure Held (sha256 : Bytes → Digest) (limit : ℕ) (jobs : List Job)
    (system : System calls Failure Shared) : Prop where
  blocklist : ∀ fingerprint, fingerprint ∈ system.state.responder.blocked ↔
    limit ≤ (assessedIn system.trace).count fingerprint
  decisions : ∀ before index fingerprint attackClass decision after,
    system.trace = before ++ (index, ⟨.assess fingerprint attackClass, decision⟩) :: after →
      decision = if (assessedIn before).count fingerprint + 1 < limit then .tarpit else .block
  verified : system.state.ledger.verify sha256 = true
  counted : system.state.ledger.entries.length =
    ((Finset.range jobs.length).filter (TurnedAway jobs system.trace)).card +
      ∑ index ∈ Finset.range jobs.length, simulatedStrikes jobs system.trace index
  simulated : ∀ index request, jobs[index]? = some (.simulate request) →
    Striking (pastOf index system.trace) ∧
      ∀ response, (perimeterSimulate request).Reaches (pastOf index system.trace)
          (.done (.ok response)) →
        simulatedStrikes jobs system.trace index = request.count.toNat

theorem run_held (outside : Outside) (sha256 : Bytes → Digest) (blockAfter : UInt32)
    (jobs : List Job) (schedule : List ℕ) :
    Held sha256 (max blockAfter.toNat 1) jobs (run outside sha256 blockAfter jobs schedule) := by
  have watched := run_watched outside sha256 blockAfter jobs schedule
  refine ⟨watched.tallies.blocked, ?_, watched.verified,
    length_entries outside sha256 blockAfter jobs schedule, ?_⟩
  · intro before index fingerprint attackClass decision after split
    exact watched.answered before _ after split
  · intro index request listed
    rcases simulate_reaches outside sha256 blockAfter schedule listed with ⟨rest, -, reaches⟩
    rcases (perimeterSimulate_obeys request).reached reaches with ⟨striking, ended⟩
    refine ⟨striking, ?_⟩
    intro response returned
    have finished := ended (.ok response) (by rw [reaches.unique returned]; rfl) response rfl
    rw [simulatedStrikes, listed]
    exact finished.entries

/--
However guards and simulations interleave, a fingerprint is blocked exactly if it was assessed
often enough, the decisions escalate at the limit, and the ledger is intact and has one entry for
every rejection and every simulated strike. A fingerprint which is blocked stays blocked, and
every request of it which is checked from then on is refused and not handled.
-/
theorem perimeter_escalates (outside : Outside) (sha256 : Bytes → Digest) (blockAfter : UInt32)
    (jobs : List Job) (earlier later : List ℕ) :
    Held sha256 (max blockAfter.toNat 1) jobs (run outside sha256 blockAfter jobs earlier) ∧
      ∀ blocked ∈ (run outside sha256 blockAfter jobs earlier).state.responder.blocked,
        blocked ∈ (run outside sha256 blockAfter jobs (earlier ++ later)).state.responder.blocked ∧
          ∀ index request, jobs[index]? = some (.guard request) → fingerprint request = blocked →
            (∀ answer, ((index, ⟨.isBlocked blocked, answer⟩) : ℕ × Made) ∉
              (run outside sha256 blockAfter jobs earlier).trace) →
              Refuses request index (earlier ++ later)
                (run outside sha256 blockAfter jobs (earlier ++ later)).trace := by
  refine ⟨run_held outside sha256 blockAfter jobs earlier, ?_⟩
  intro blocked listed
  have enough := ((run_watched outside sha256 blockAfter jobs earlier).tallies.blocked
    blocked).mp listed
  have watched := run_watched outside sha256 blockAfter jobs (earlier ++ later)
  have grown := run_append outside sha256 blockAfter jobs earlier later
  refine ⟨?_, ?_⟩
  · apply (watched.tallies.blocked blocked).mpr
    exact enough.trans (count_assessedIn_mono grown blocked)
  · intro index request guarded same unchecked
    subst same
    apply guard_refuses outside sha256 blockAfter (earlier ++ later) guarded
    intro told
    rcases List.append_of_mem told with ⟨before, after, split⟩
    rw [split] at grown
    have within := prefix_of_notMem grown (unchecked false)
    have answered : false = decide _ := watched.answered before _ after split
    have many := enough.trans (count_assessedIn_mono within (fingerprint request))
    simp [many] at answered

def quietOutside : Outside where
  clock tick := ⟨UInt64.ofNat tick⟩
  uuid tick := toString tick
  respond _ _ := ⟨200, ""⟩

def attacker : Incoming :=
  ⟨[("x-vault-fingerprint", [120])], "/v1/apps"⟩

/-- A simulation, and a request with the same fingerprint. -/
def simulatedRun (schedule : List ℕ) : System calls Failure Shared :=
  run quietOutside footprintDigest 3 [.simulate ⟨some "x", none⟩, .guard attacker] schedule

/-- Three simulated strikes block the fingerprint, and the request after them is refused. -/
theorem perimeter_escalates_simulated :
    Refuses attacker 1 (List.replicate 8 0 ++ [1, 1, 1])
      (simulatedRun (List.replicate 8 0 ++ [1, 1, 1])).trace := by
  have blocked : "x" ∈ (simulatedRun (List.replicate 8 0)).state.responder.blocked := by
    decide
  have alone : (simulatedRun (List.replicate 8 0)).trace.all fun event => event.1 == 0 := by
    decide
  rcases perimeter_escalates quietOutside footprintDigest 3
    [.simulate ⟨some "x", none⟩, .guard attacker] (List.replicate 8 0) [1, 1, 1] with
    ⟨-, afterBlocking⟩
  apply (afterBlocking "x" blocked).2 1 attacker rfl rfl
  intro answer present
  have first := List.all_eq_true.mp alone _ present
  simp at first

end Perimeter

end VaultMesh
