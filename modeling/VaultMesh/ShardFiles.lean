import VaultMesh.Files.Replacement
import VaultMesh.FsBlobAnchor

/-!
# Shards written and read at the same time

`FsBlobAnchor` writes a shard to a temporary file and renames it, for atomicity.
The name of the temporary file is made from that of the shard, so all writers of
one shard share it. A put which empties it while another one is about to rename
it makes that one publish an empty shard (`torn_put`). As long as no put empties
the temporary file of another one, shards are replaced as a whole
(`shards_atomic_when_exclusive`).

Here a call is its steps on the contents of files. `tokio::fs::write` takes two
of them and `rename` one, and the steps of any number of calls are interleaved.
-/

namespace VaultMesh

open Interaction Files

namespace FsBlobAnchor

/-! ## Calls as steps -/

/-- A step of which the error is handed on, as with `map_err(backend)?`. -/
def ioStep (request : FileCall) (outcome : request.Answer → Except FsError Unit) :
    Program fileCalls PortError Unit :=
  .call request fun answer => .done ((outcome answer).mapError backend)

def putShardSteps (self : FsBlobAnchor) (ref : ShardRef) (bytes : Bytes) :
    Program fileCalls PortError Unit := do
  let path := self.shardPath ref
  ioStep (.createDirAll (parent path)) id
  let tmp := temporary path ref.index
  -- `tokio::fs::write` opens the file, which empties it, and writes to it afterwards.
  ioStep (.truncate tmp) id
  ioStep (.fill tmp bytes) id
  ioStep (.rename tmp path) id

def getShardSteps (self : FsBlobAnchor) (ref : ShardRef) : Program fileCalls PortError Bytes :=
  .call (.read (self.shardPath ref)) fun
    | .ok bytes => .done (.ok bytes)
    | .error .notFound => .done (.error .notFound)
    | .error error => .done (.error (backend error))

end FsBlobAnchor

inductive ShardCall where
  | put (ref : ShardRef) (bytes : Bytes)
  | get (ref : ShardRef)

def ShardCall.ref : ShardCall → ShardRef
  | .put ref _ | .get ref => ref

namespace FsBlobAnchor

def steps (self : FsBlobAnchor) : ShardCall → Program fileCalls PortError Unit
  | .put ref bytes => self.putShardSteps ref bytes
  | .get ref => (self.getShardSteps ref).void

/-- The calls before their first steps. -/
def concurrently (self : FsBlobAnchor) (first : Contents) (calls : List ShardCall) :
    System fileCalls PortError Contents :=
  .start first (calls.map self.steps)

/-- By the exchanges of the trace, the put has returned `Ok`. -/
def Completed (self : FsBlobAnchor) (calls : List ShardCall)
    (trace : List (ℕ × Exchange fileCalls)) (index : ℕ) (ref : ShardRef) (bytes : Bytes) : Prop :=
  calls[index]? = some (.put ref bytes) ∧
    (self.putShardSteps ref bytes).Reaches (pastOf index trace) (.done (.ok ()))

/-- Gets return whole shards, and a shard which was put is there as a whole. -/
structure Atomic (anchor : FsBlobAnchor) (first : Contents) (calls : List ShardCall)
    (system : System fileCalls PortError Contents) : Prop where
  reads : ∀ index ref result, calls[index]? = some (.get ref) →
    (anchor.getShardSteps ref).Reaches (pastOf index system.trace) (.done result) →
      (∃ bytes, result = .ok bytes ∧
        (first (anchor.shardPath ref) = some bytes ∨ .put ref bytes ∈ calls)) ∨
      (result = .error .notFound ∧ first (anchor.shardPath ref) = none ∧
        ∃ before made after, system.trace = before ++ (index, made) :: after ∧
          ∀ other bytes, ¬anchor.Completed calls before other ref bytes)
  stored : ∀ index ref bytes, anchor.Completed calls system.trace index ref bytes →
    ∃ other bytes', anchor.Completed calls system.trace other ref bytes' ∧
      system.state (anchor.shardPath ref) = some bytes'

/-! ## The steps of a put -/

/-- A file was moved to the path. -/
def RenamedTo (path : Path) (made : List (Exchange fileCalls)) : Prop :=
  ∃ source, (⟨.rename source path, .ok ()⟩ : Exchange fileCalls) ∈ made

/-- The put has returned `Ok` if the shard was renamed, and not otherwise. -/
def EndsByRenaming (path : Path) (made : List (Exchange fileCalls))
    (rest : Program fileCalls PortError Unit) : Prop :=
  (rest = .done (.ok ()) ∧ RenamedTo path made) ∨
    (rest ≠ .done (.ok ()) ∧ ∀ target, ¬RenamedTo target made)

variable {self : FsBlobAnchor} {ref : ShardRef} {bytes : Bytes} {made : List (Exchange fileCalls)}

theorem endsByRenaming_ioStep {path : Path} {request : FileCall}
    (notRename : ∀ source target, request ≠ .rename source target)
    {outcome : request.Answer → Except FsError Unit}
    {next : Unit → Program fileCalls PortError Unit} {rest : Program fileCalls PortError Unit}
    (reaches : (ioStep request outcome >>= next).Reaches made rest)
    (later : ∀ {later}, (next ()).Reaches later rest → EndsByRenaming path later rest) :
    EndsByRenaming path made rest := by
  have notHere : ∀ {target answer after}, RenamedTo target (⟨request, answer⟩ :: after) →
      RenamedTo target after := by
    rintro target answer after ⟨source, there⟩
    rcases List.mem_cons.mp there with here | there
    · exact absurd (congrArg Sigma.fst here).symm (notRename source target)
    · exact ⟨source, there⟩
  rcases reaches.of_call_bind with
    ⟨rfl, running⟩ | ⟨answer, after, rfl, ⟨error, -, rfl, rfl⟩ | ⟨value, -, goesOn⟩⟩
  · refine Or.inr ⟨?_, by simp [RenamedTo]⟩
    rintro rfl
    cases running
  · exact Or.inr ⟨by simp, fun target renamed => by simpa [RenamedTo] using notHere renamed⟩
  · rcases later goesOn with ⟨ended, source, there⟩ | ⟨running, unmoved⟩
    · exact Or.inl ⟨ended, source, List.mem_cons_of_mem _ there⟩
    · exact Or.inr ⟨running, fun target renamed => unmoved target (notHere renamed)⟩

theorem putShardSteps_ends {rest : Program fileCalls PortError Unit}
    (reaches : (self.putShardSteps ref bytes).Reaches made rest) :
    EndsByRenaming (self.shardPath ref) made rest := by
  refine endsByRenaming_ioStep (by simp) reaches fun afterMaking => ?_
  refine endsByRenaming_ioStep (by simp) afterMaking fun afterOpening => ?_
  refine endsByRenaming_ioStep (by simp) afterOpening fun afterWriting => ?_
  rcases afterWriting.of_call with ⟨rfl, rfl⟩ | ⟨answer, after, rfl, ended⟩
  · exact Or.inr ⟨by simp, by simp [RenamedTo]⟩
  · rcases ended.of_done with ⟨rfl, rfl⟩
    cases answer with
    | error error =>
        refine Or.inr ⟨by rintro ⟨⟩, ?_⟩
        rintro target ⟨source, there⟩
        cases List.mem_singleton.mp there
    | ok value => exact Or.inl ⟨rfl, _, List.mem_singleton_self _⟩

/-! ## Calls as replacements -/

def replacement (self : FsBlobAnchor) (ref : ShardRef) (bytes : Bytes) : Replacement where
  temporary := temporary (self.shardPath ref) ref.index
  path := self.shardPath ref
  bytes := bytes

def replacements (self : FsBlobAnchor) (calls : List ShardCall) (index : ℕ) :
    Option Replacement :=
  match calls[index]? with
  | some (.put ref bytes) => some (self.replacement ref bytes)
  | _ => none

theorem replacements_eq_some {calls : List ShardCall} {index : ℕ} {job : Replacement}
    (isJob : self.replacements calls index = some job) :
    ∃ ref bytes, calls[index]? = some (.put ref bytes) ∧ job = self.replacement ref bytes := by
  rw [replacements] at isJob
  split at isJob
  · next ref bytes listed => exact ⟨ref, bytes, listed, (Option.some.inj isJob).symm⟩
  · cases isJob

theorem temporary_ne_shardPath (self : FsBlobAnchor) (ref other : ShardRef) :
    temporary (self.shardPath ref) ref.index ≠ self.shardPath other := by
  intro same
  rcases self.shardPath_ends other with ⟨components, ends⟩
  have lasts := congrArg (fun path : Path => path.components.getLast?) same
  simp only [temporary, ends, List.getLast?_append, List.getLast?_singleton,
    Option.some_or, Option.some.injEq] at lasts
  exact temporary_ne_shardName _ _ lasts

theorem shardPath_eq_of_temporary {one other : ShardRef}
    (same : temporary (self.shardPath one) one.index =
      temporary (self.shardPath other) other.index) :
    self.shardPath one = self.shardPath other := by
  rcases self.shardPath_ends one with ⟨front, ends⟩
  rcases self.shardPath_ends other with ⟨frontToo, endsToo⟩
  simp only [temporary, ends, endsToo, List.dropLast_concat, Files.Path.mk.injEq] at same
  rcases same with ⟨sameStart, sameComponents⟩
  rcases List.append_inj' sameComponents (by simp) with ⟨rfl, sameNames⟩
  have sameIndex : paddedIndex one.index = paddedIndex other.index :=
    (String.append_left_inj ".shard.tmp").mp (List.singleton_inj.mp sameNames)
  rw [Files.Path.mk.injEq, ends, endsToo, shardName, shardName, sameIndex]
  exact ⟨sameStart, rfl⟩

theorem not_isTemporary_shardPath (calls : List ShardCall) (ref : ShardRef) :
    ¬IsTemporary (self.replacements calls) (self.shardPath ref) := by
  rintro ⟨index, job, isJob, same⟩
  rcases replacements_eq_some isJob with ⟨other, bytes, -, rfl⟩
  exact temporary_ne_shardPath self other ref same

theorem putShardSteps_obeys (self : FsBlobAnchor) (ref : ShardRef) (bytes : Bytes) :
    (self.putShardSteps ref bytes).Obeys (self.replacement ref bytes).Allows []
      fun _ _ => True := by
  refine Program.Obeys.call_bind (.createDirAll _) (fun _ _ _ => trivial) fun _ _ _ => ?_
  refine Program.Obeys.call_bind .truncate (fun _ _ _ => trivial) fun _ _ _ => ?_
  refine Program.Obeys.call_bind .fill (fun _ _ _ => trivial) fun _ _ _ => ?_
  exact ⟨.rename, fun _ => trivial⟩

theorem follows_concurrently (self : FsBlobAnchor) (first : Contents) (calls : List ShardCall) :
    (self.concurrently first calls).Follows (KeepsTo (self.replacements calls))
      fun _ _ _ => True := by
  intro index program started
  rw [concurrently, System.start, List.getElem?_map, Option.map_eq_some_iff] at started
  rcases started with ⟨call, listed, rfl⟩
  cases call with
  | put ref bytes =>
      refine (self.putShardSteps_obeys ref bytes).weaken fun past request permitted => ?_
      simpa [KeepsTo, replacements, listed] using permitted
  | get ref =>
      refine ⟨by simp [KeepsTo, replacements, listed], fun answer => ?_⟩
      rcases answer with error | bytes
      · cases error <;> trivial
      · trivial

/-! ## Whole shards -/

section Concurrent

variable {first : Contents} {calls : List ShardCall} {schedule : List ℕ}

theorem Completed.moved {trace : List (ℕ × Exchange fileCalls)} {index : ℕ}
    (completed : self.Completed calls trace index ref bytes) :
    Moved (self.shardPath ref) trace index := by
  rcases putShardSteps_ends completed.2 with ⟨-, source, there⟩ | ⟨running, -⟩
  · exact ⟨source, mem_pastOf.mp there⟩
  · exact absurd rfl running

/-- A put which has renamed its file has returned. -/
theorem completed_of_moved {path : Path} {index : ℕ}
    (listed : calls[index]? = some (.put ref bytes))
    (moved : Moved path
      (System.exec fileHandler (self.concurrently first calls) schedule).trace index) :
    self.Completed calls (System.exec fileHandler (self.concurrently first calls) schedule).trace
      index ref bytes := by
  have started : (calls.map self.steps)[index]? = some (self.putShardSteps ref bytes) := by
    rw [List.getElem?_map, listed]
    rfl
  rcases System.exec_reaches fileHandler first started schedule with ⟨rest, -, reaches⟩
  rcases putShardSteps_ends reaches with ⟨rfl, -⟩ | ⟨-, unmoved⟩
  · exact ⟨listed, reaches⟩
  · rcases moved with ⟨source, there⟩
    exact absurd ⟨source, mem_pastOf.mpr there⟩ (unmoved path)

/-- What a get makes of the answer to its only step. -/
theorem getShardSteps_reaches {result : PortResult Bytes}
    (reaches : (self.getShardSteps ref).Reaches made (.done result)) :
    ∃ answer : Except FsError Bytes, made = [⟨.read (self.shardPath ref), answer⟩] ∧
      ∀ content, answer = contentAnswer content →
        (content = none ∧ result = .error .notFound) ∨
          ∃ bytes, content = some bytes ∧ result = .ok bytes := by
  rcases reaches.of_call with ⟨-, running⟩ | ⟨answer, later, rfl, after⟩
  · cases running
  · refine ⟨answer, ?_, ?_⟩
    · rcases answer with error | bytes
      · cases error <;> rw [after.of_done.1]
      · rw [after.of_done.1]
    · rintro (- | bytes) rfl
      · exact Or.inl ⟨rfl, Program.done.inj after.of_done.2⟩
      · exact Or.inr ⟨bytes, rfl, Program.done.inj after.of_done.2⟩

/-- What is found of a shard: its first content, or that of a put which was moved there. -/
theorem settled_cases {trace : List (ℕ × Exchange fileCalls)} {content : Option Bytes}
    (apart : ∀ one ∈ calls, ∀ other ∈ calls,
      self.shardPath one.ref = self.shardPath other.ref → one.ref = other.ref)
    {call : ShardCall} (present : call ∈ calls)
    (settled : Settled (self.replacements calls) first (self.shardPath call.ref) trace content) :
    (content = first (self.shardPath call.ref) ∧
        ∀ index, ¬Moved (self.shardPath call.ref) trace index) ∨
      ∃ index bytes, calls[index]? = some (.put call.ref bytes) ∧
        Moved (self.shardPath call.ref) trace index ∧ content = some bytes := by
  cases settled with
  | untouched unmoved => exact Or.inl ⟨rfl, unmoved⟩
  | @replaced index job isJob same moved =>
      rcases replacements_eq_some isJob with ⟨ref, bytes, listed, rfl⟩
      have sameRef : ref = call.ref :=
        apart (.put ref bytes) (List.mem_of_getElem? listed) call present same
      subst sameRef
      exact Or.inr ⟨index, bytes, listed, moved, rfl⟩

/-- Puts of different shards do not empty the temporary files of each other. -/
theorem along_unshared_of_single_writers (self : FsBlobAnchor) (first : Contents)
    (apart : ∀ one ∈ calls, ∀ other ∈ calls,
      self.shardPath one.ref = self.shardPath other.ref → one.ref = other.ref)
    (single : ∀ (one other : ℕ) ref bytes bytes', calls[one]? = some (.put ref bytes) →
      calls[other]? = some (.put ref bytes') → one = other) (schedule : List ℕ) :
    System.Along fileHandler Unshared (self.concurrently first calls) schedule := by
  rw [System.along_iff]
  intro steps index _
  apply unshared_of_single ((self.follows_concurrently first calls).exec _)
  intro one other job job' isJob isJob' same
  rcases replacements_eq_some isJob with ⟨ref, bytes, listed, rfl⟩
  rcases replacements_eq_some isJob' with ⟨ref', bytes', listedToo, rfl⟩
  have sameRef : ref = ref' :=
    apart _ (List.mem_of_getElem? listed) _ (List.mem_of_getElem? listedToo)
      (shardPath_eq_of_temporary same)
  subst sameRef
  exact single one other ref bytes bytes' listed listedToo

/--
Shards are replaced as a whole as long as the shards called have paths of their
own and no put empties the temporary file of another one.
-/
theorem shards_atomic_when_unshared (self : FsBlobAnchor) (first : Contents)
    (calls : List ShardCall) (schedule : List ℕ)
    (apart : ∀ one ∈ calls, ∀ other ∈ calls,
      self.shardPath one.ref = self.shardPath other.ref → one.ref = other.ref)
    (unshared : System.Along fileHandler Unshared (self.concurrently first calls) schedule) :
    self.Atomic first calls
      (System.exec fileHandler (self.concurrently first calls) schedule) := by
  have replacing := replacing_exec (fun {index job} isJob => by
    rcases replacements_eq_some isJob with ⟨ref, bytes, -, rfl⟩
    exact not_isTemporary_shardPath calls ref) (self.follows_concurrently first calls) unshared
  constructor
  · intro index ref result listed reaches
    rcases getShardSteps_reaches reaches with ⟨answer, made, decodes⟩
    have there : (index, (⟨.read (self.shardPath ref), answer⟩ : Exchange fileCalls)) ∈
        (System.exec fileHandler (self.concurrently first calls) schedule).trace := by
      rw [← mem_pastOf, made]
      exact List.mem_singleton_self _
    rcases List.append_of_mem there with ⟨before, after, split⟩
    rcases replacing.reads before _ after split _ answer rfl (not_isTemporary_shardPath calls ref)
      with ⟨content, settled, answered⟩
    rcases settled_cases apart (List.mem_of_getElem? listed) settled with
      ⟨prior, unmoved⟩ | ⟨other, bytes, put, -, rfl⟩
    · rcases decodes content answered with ⟨missing, refused⟩ | ⟨bytes, present, returned⟩
      · refine Or.inr ⟨refused, prior.symm.trans missing, before, _, after, split, ?_⟩
        intro other bytes completed
        exact unmoved other completed.moved
      · exact Or.inl ⟨bytes, returned, Or.inl (prior.symm.trans present)⟩
    · rcases decodes _ answered with ⟨missing, -⟩ | ⟨bytes', same, returned⟩
      · cases missing
      · rcases Option.some.inj same with rfl
        exact Or.inl ⟨bytes, returned, Or.inr (List.mem_of_getElem? put)⟩
  · intro index ref bytes completed
    have settled := replacing.settled (not_isTemporary_shardPath calls ref)
    rcases settled_cases apart (List.mem_of_getElem? completed.1) settled with
      ⟨-, unmoved⟩ | ⟨other, bytes', put, moved, content⟩
    · exact absurd completed.moved (unmoved index)
    · exact ⟨other, bytes', completed_of_moved put moved, content⟩

end Concurrent

def exampleAnchor : FsBlobAnchor :=
  ⟨[], Path.ofString "/var/lib/vault/shards"⟩

def exampleShard (index : UInt16) : ShardRef :=
  ⟨⟨"family"⟩, ⟨"b1"⟩, index⟩

def exampleCalls : List ShardCall :=
  [.put (exampleShard 0) [1, 2], .put (exampleShard 1) [3], .get (exampleShard 0)]

theorem shards_atomic_when_unshared_two_puts :
    exampleAnchor.Atomic (fun _ => none) exampleCalls
      (System.exec fileHandler (exampleAnchor.concurrently (fun _ => none) exampleCalls)
        [0, 1, 0, 1, 2, 0, 1, 0, 1]) := by
  have apart : ∀ one ∈ exampleCalls, ∀ other ∈ exampleCalls,
      exampleAnchor.shardPath one.ref = exampleAnchor.shardPath other.ref →
        one.ref = other.ref := by
    decide +kernel
  refine shards_atomic_when_unshared _ _ _ _ apart
    (exampleAnchor.along_unshared_of_single_writers _ apart ?_ _)
  have different : exampleShard 0 ≠ exampleShard 1 := by decide
  intro one other ref bytes bytes' listed listedToo
  clear apart
  rcases one with _ | _ | _ | one <;> rcases other with _ | _ | _ | other <;>
    simp_all [exampleCalls]

/-! ## Torn shards -/

def tornSchedule : List ℕ :=
  [0, 0, 0, 1, 1] ++ [0, 2]

/-- Any two puts of one shard can be scheduled so that one returns and leaves an empty shard. -/
theorem torn_put (self : FsBlobAnchor) (first : Contents) (ref : ShardRef) (bytes bytes' : Bytes) :
    let calls := [.put ref bytes, .put ref bytes', .get ref]
    let system := System.exec fileHandler (self.concurrently first calls) tornSchedule
    self.Completed calls system.trace 0 ref bytes ∧
      (self.getShardSteps ref).Reaches (pastOf 2 system.trace) (.done (.ok [])) := by
  intro calls system
  let path := self.shardPath ref
  let tmp := temporary path ref.index
  -- The second put has emptied the file which the first one is about to rename.
  have opened : ∃ written front second,
      System.exec fileHandler (self.concurrently first calls) [0, 0, 0, 1, 1] =
        ⟨Function.update written tmp (some []),
          [ioStep (.rename tmp path) id, second, (self.getShardSteps ref).void], front⟩ ∧
        pastOf 2 front = [] :=
    ⟨_, _, _, rfl, rfl⟩
  rcases opened with ⟨written, front, second, opened, unread⟩
  have last : system.trace =
      front ++ [(0, ⟨.rename tmp path, .ok ()⟩)] ++ [(2, ⟨.read path, .ok []⟩)] := by
    have turns : ∀ system : System fileCalls PortError Contents,
        System.exec fileHandler system [0, 2] =
          System.step fileHandler (System.step fileHandler system 0) 2 := fun _ => rfl
    have renamed : System.step fileHandler
        (⟨Function.update written tmp (some []),
          [ioStep (.rename tmp path) id, second, (self.getShardSteps ref).void], front⟩ :
          System fileCalls PortError Contents) 0 =
        ⟨Function.update (Function.update (Function.update written tmp (some [])) tmp none) path
            (some []),
          [.done (.ok ()), second, (self.getShardSteps ref).void],
          front ++ [(0, ⟨.rename tmp path, .ok ()⟩)]⟩ := by
      rw [System.step_of_call rfl]
      simp only [System.afterCall, fileHandler]
      rw [fileAnswer_rename (Function.update_self _ _ _)]
      rfl
    simp only [system, tornSchedule]
    rw [System.exec_append, opened, turns, renamed, System.step_of_call rfl]
    simp only [System.afterCall, fileHandler]
    rw [fileAnswer_read (Function.update_self _ _ _)]
  constructor
  · have moved : Moved path system.trace 0 := by
      rw [last]
      exact ⟨tmp, by simp⟩
    exact completed_of_moved rfl moved
  · rw [last, pastOf_append_self, pastOf_append_of_ne (by decide), unread]
    exact .call _ (.refl _)

theorem shards_torn :
    ¬exampleAnchor.Atomic (fun _ => none)
      [.put (exampleShard 0) [1], .put (exampleShard 0) [2], .get (exampleShard 0)]
      (System.exec fileHandler (exampleAnchor.concurrently (fun _ => none)
        [.put (exampleShard 0) [1], .put (exampleShard 0) [2], .get (exampleShard 0)])
        tornSchedule) := by
  intro atomic
  have torn := exampleAnchor.torn_put (fun _ => none) (exampleShard 0) [1] [2]
  rcases atomic.reads 2 (exampleShard 0) (.ok []) rfl torn.2 with
    ⟨bytes, empty, prior | put⟩ | ⟨refused, -⟩
  · cases prior
  · rcases Except.ok.inj empty with rfl
    simp at put
  · cases refused

end FsBlobAnchor

end VaultMesh
