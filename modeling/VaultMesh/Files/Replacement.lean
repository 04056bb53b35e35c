import VaultMesh.Files.FileSystem
import VaultMesh.Interaction.Interleaving

/-!
# Replacing files by renaming

Programs share the contents of files, each found by its path. Writing a file
takes two steps, of which the first empties it, so whoever reads in between
finds it empty. A `Replacement` therefore writes under another name and renames
the file once it is complete, and renaming is one step.

Any number of replacements and reads may be interleaved. `Unshared` is the
condition on each step under which this works: nobody empties a temporary file
which another replacement has emptied and not renamed yet. Then whatever is
found at a path was there at first or is all that one of its replacements writes
(`replacing_exec`).
-/

namespace Files

open Interaction

/-! ## The steps -/

abbrev Contents := Path → Option (List UInt8)

inductive FileCall where
  | createDirAll (path : Path)
  | truncate (path : Path)
  | fill (path : Path) (bytes : List UInt8)
  | rename (source target : Path)
  | read (path : Path)
  deriving DecidableEq

def FileCall.Answer : FileCall → Type
  | .read _ => Except FsError (List UInt8)
  | _ => Except FsError Unit

abbrev fileCalls : Interface :=
  ⟨FileCall, FileCall.Answer⟩

/-- Write from the start of a file, as far as the bytes go. -/
def overwrite (bytes old : List UInt8) : List UInt8 :=
  bytes ++ old.drop bytes.length

def contentAnswer : Option (List UInt8) → Except FsError (List UInt8)
  | some bytes => .ok bytes
  | none => .error .notFound

def fileAnswer (files : Contents) : (request : FileCall) → request.Answer × Contents
  | .createDirAll _ => (.ok (), files)
  | .truncate path => (.ok (), Function.update files path (some []))
  | .fill path bytes =>
      (.ok (), Function.update files path (some (overwrite bytes ((files path).getD []))))
  | .rename source target =>
      match files source with
      | none => (.error .notFound, files)
      | some bytes =>
          (.ok (), Function.update (Function.update files source none) target (some bytes))
  | .read path => (contentAnswer (files path), files)

def fileHandler : Handler fileCalls Contents where
  answer := fileAnswer

/-- The paths whose contents a call may change. -/
def FileCall.Changes (path : Path) : FileCall → Prop
  | .truncate written | .fill written _ => path = written
  | .rename source target => path = source ∨ path = target
  | .createDirAll _ | .read _ => False

theorem fileAnswer_of_not_changes {request : FileCall} {path : Path}
    (kept : ¬request.Changes path) (files : Contents) :
    (fileAnswer files request).2 path = files path := by
  cases request with
  | createDirAll made => rfl
  | truncate written => exact Function.update_of_ne kept _ _
  | fill written bytes => exact Function.update_of_ne kept _ _
  | rename source target =>
      rcases not_or.mp kept with ⟨notSource, notTarget⟩
      rw [fileAnswer]
      split
      · rfl
      · exact (Function.update_of_ne notTarget _ _).trans (Function.update_of_ne notSource _ _)
  | read path => rfl

theorem fileAnswer_rename {files : Contents} {source : Path} {bytes : List UInt8}
    (present : files source = some bytes) (target : Path) :
    fileAnswer files (.rename source target) =
      (.ok (), Function.update (Function.update files source none) target (some bytes)) := by
  simp only [fileAnswer, present]

theorem fileAnswer_read {files : Contents} {path : Path} {bytes : List UInt8}
    (present : files path = some bytes) : fileAnswer files (.read path) = (.ok bytes, files) := by
  simp only [fileAnswer, present, contentAnswer]

/-! ## Replacements -/

/-- Write the bytes to a temporary file, then move it to its place. -/
structure Replacement where
  temporary : Path
  path : Path
  bytes : List UInt8

/-- The calls of a replacement, by the call before. -/
inductive Replacement.Allows (self : Replacement) :
    List (Exchange fileCalls) → FileCall → Prop where
  | createDirAll {past : List (Exchange fileCalls)} (path : Path) :
      self.Allows past (.createDirAll path)
  | truncate {past : List (Exchange fileCalls)} : self.Allows past (.truncate self.temporary)
  | fill {past : List (Exchange fileCalls)} {answer : Except FsError Unit} :
      self.Allows (past ++ [⟨.truncate self.temporary, answer⟩]) (.fill self.temporary self.bytes)
  | rename {past : List (Exchange fileCalls)} {answer : Except FsError Unit} :
      self.Allows (past ++ [⟨.fill self.temporary self.bytes, answer⟩])
        (.rename self.temporary self.path)

/-- The programs which replace files keep to their replacements; the others only read. -/
def KeepsTo (jobs : ℕ → Option Replacement) (index : ℕ) (past : List (Exchange fileCalls))
    (request : FileCall) : Prop :=
  match jobs index with
  | some job => job.Allows past request
  | none => ∃ path, request = .read path

/-- What a replacement finds in its temporary file when it makes a call. -/
def Replacement.Staged (self : Replacement) (files : Contents) : FileCall → Prop
  | .fill temporary _ => files temporary = some []
  | .rename temporary _ => files temporary = some self.bytes
  | _ => True

/-- The file was moved to the path. -/
def Moved (path : Path) (trace : List (ℕ × Exchange fileCalls)) (index : ℕ) : Prop :=
  ∃ source, (index, (⟨.rename source path, .ok ()⟩ : Exchange fileCalls)) ∈ trace

/-- What there can be at a path: its first contents until it was replaced. -/
inductive Settled (jobs : ℕ → Option Replacement) (first : Contents) (path : Path)
    (trace : List (ℕ × Exchange fileCalls)) : Option (List UInt8) → Prop where
  | untouched (unmoved : ∀ index, ¬Moved path trace index) :
      Settled jobs first path trace (first path)
  | replaced {index : ℕ} {job : Replacement} (isJob : jobs index = some job)
      (same : job.path = path) (moved : Moved path trace index) :
      Settled jobs first path trace (some job.bytes)

def IsTemporary (jobs : ℕ → Option Replacement) (path : Path) : Prop :=
  ∃ index job, jobs index = some job ∧ job.temporary = path

section Exclusion

variable {ε : Type}

/-- The program has emptied the temporary file and not renamed it yet. -/
def Holds (system : System fileCalls ε Contents) (index : ℕ) (temporary : Path) : Prop :=
  (∃ bytes, system.Next index (.fill temporary bytes)) ∨
    ∃ path, system.Next index (.rename temporary path)

/-- The program does not empty a temporary file which another one holds. -/
def Unshared (system : System fileCalls ε Contents) (index : ℕ) : Prop :=
  ∀ temporary, system.Next index (.truncate temporary) → ∀ other, ¬Holds system other temporary

/-- The invariant of replacements of which no two hold a file at once. -/
structure Replacing (jobs : ℕ → Option Replacement)
    (post : ℕ → List (Exchange fileCalls) → Except ε Unit → Prop) (first : Contents)
    (system : System fileCalls ε Contents) : Prop where
  follows : system.Follows (KeepsTo jobs) post
  alone : ∀ {index other temporary}, Holds system index temporary →
    Holds system other temporary → index = other
  staged : ∀ {index job} request, jobs index = some job → system.Next index request →
    job.Staged system.state request
  settled : ∀ {path}, ¬IsTemporary jobs path →
    Settled jobs first path system.trace (system.state path)
  reads : ∀ before (event : ℕ × Exchange fileCalls) after,
    system.trace = before ++ event :: after → ∀ path answer, event.2 = ⟨.read path, answer⟩ →
      ¬IsTemporary jobs path → ∃ content, Settled jobs first path before content ∧
        answer = contentAnswer content

/-! ## What the rule permits -/

variable {jobs : ℕ → Option Replacement} {index : ℕ} {past : List (Exchange fileCalls)}

theorem KeepsTo.fill {temporary : Path} {bytes : List UInt8}
    (permitted : KeepsTo jobs index past (.fill temporary bytes)) :
    ∃ job, jobs index = some job ∧ temporary = job.temporary ∧ bytes = job.bytes ∧
      ∃ before answer, past = before ++ [⟨.truncate temporary, answer⟩] := by
  rw [KeepsTo] at permitted
  split at permitted
  · next job isJob =>
      cases permitted with
      | @fill before answer => exact ⟨job, isJob, rfl, rfl, before, answer, rfl⟩
  · rcases permitted with ⟨path, same⟩
    cases same

theorem KeepsTo.rename {temporary path : Path}
    (permitted : KeepsTo jobs index past (.rename temporary path)) :
    ∃ job, jobs index = some job ∧ temporary = job.temporary ∧ path = job.path ∧
      ∃ before answer, past = before ++ [⟨.fill temporary job.bytes, answer⟩] := by
  rw [KeepsTo] at permitted
  split at permitted
  · next job isJob =>
      cases permitted with
      | @rename before answer => exact ⟨job, isJob, rfl, rfl, before, answer, rfl⟩
  · rcases permitted with ⟨path, same⟩
    cases same

theorem KeepsTo.truncate {temporary : Path}
    (permitted : KeepsTo jobs index past (.truncate temporary)) :
    ∃ job, jobs index = some job ∧ temporary = job.temporary := by
  rw [KeepsTo] at permitted
  split at permitted
  · next job isJob =>
      cases permitted
      exact ⟨job, isJob, rfl⟩
  · rcases permitted with ⟨path, same⟩
    cases same

/-- Only what is moved to the path replaces what is there. -/
theorem Settled.append {first : Contents} {path : Path} {trace : List (ℕ × Exchange fileCalls)}
    {event : ℕ × Exchange fileCalls} {content : Option (List UInt8)}
    (settled : Settled jobs first path trace content)
    (notMoved : ∀ source answer, event.2 ≠ ⟨.rename source path, answer⟩) :
    Settled jobs first path (trace ++ [event]) content := by
  cases settled with
  | untouched unmoved =>
      refine .untouched ?_
      rintro index ⟨source, there⟩
      rcases List.mem_append.mp there with before | now
      · exact unmoved index ⟨source, before⟩
      · exact notMoved source (.ok ()) (congrArg Prod.snd (List.mem_singleton.mp now)).symm
  | replaced isJob same moved =>
      rcases moved with ⟨source, there⟩
      exact .replaced isJob same ⟨source, List.mem_append_left _ there⟩

section Step

variable {post : ℕ → List (Exchange fileCalls) → Except ε Unit → Prop} {first : Contents}
  {system : System fileCalls ε Contents} {request : FileCall}
  {rest : request.Answer → Program fileCalls ε Unit}

theorem truncate_before_fill {temporary : Path} {bytes : List UInt8}
    (follows : system.Follows (KeepsTo jobs) post)
    (called : system.programs[index]? = some (.call request rest))
    (next : (System.afterCall fileHandler system index request rest).Next index
      (.fill temporary bytes)) : request = .truncate temporary := by
  have after : (System.afterCall fileHandler system index request rest).Follows (KeepsTo jobs)
      post := follows.afterCall called
  rcases (after.next next).fill with ⟨-, -, -, -, before, answer, grown⟩
  rw [System.afterCall, pastOf_append_self] at grown
  exact congrArg Sigma.fst (List.singleton_inj.mp (List.append_inj_right' grown rfl))

theorem fill_before_rename {temporary path : Path} (follows : system.Follows (KeepsTo jobs) post)
    (called : system.programs[index]? = some (.call request rest))
    (next : (System.afterCall fileHandler system index request rest).Next index
      (.rename temporary path)) :
    ∃ job, jobs index = some job ∧ request = .fill temporary job.bytes := by
  have after : (System.afterCall fileHandler system index request rest).Follows (KeepsTo jobs)
      post := follows.afterCall called
  rcases (after.next next).rename with ⟨job, isJob, -, -, before, answer, grown⟩
  rw [System.afterCall, pastOf_append_self] at grown
  exact ⟨job, isJob,
    congrArg Sigma.fst (List.singleton_inj.mp (List.append_inj_right' grown rfl))⟩

/-- After its call, a program holds what it has just emptied and what it held and has filled. -/
theorem Holds.of_afterCall {other : ℕ} {temporary : Path}
    (follows : system.Follows (KeepsTo jobs) post)
    (called : system.programs[index]? = some (.call request rest))
    (holds : Holds (System.afterCall fileHandler system index request rest) other temporary) :
    Holds system other temporary ∨ other = index ∧ request = .truncate temporary := by
  by_cases mine : index = other
  · subst mine
    rcases holds with ⟨bytes, fills⟩ | ⟨path, renames⟩
    · exact Or.inr ⟨rfl, truncate_before_fill follows called fills⟩
    · rcases fill_before_rename follows called renames with ⟨job, -, rfl⟩
      exact Or.inl (Or.inl ⟨job.bytes, rest, called⟩)
  · left
    rw [Holds] at holds ⊢
    simpa only [System.next_afterCall_of_ne mine] using holds

theorem Holds.job {temporary : Path} (follows : system.Follows (KeepsTo jobs) post)
    (holds : Holds system index temporary) :
    ∃ job, jobs index = some job ∧ temporary = job.temporary := by
  rcases holds with ⟨bytes, fills⟩ | ⟨path, renames⟩
  · rcases (follows.next fills).fill with ⟨job, isJob, same, -⟩
    exact ⟨job, isJob, same⟩
  · rcases (follows.next renames).rename with ⟨job, isJob, same, -⟩
    exact ⟨job, isJob, same⟩

theorem Holds.isTemporary {temporary : Path} (follows : system.Follows (KeepsTo jobs) post)
    (holds : Holds system index temporary) : IsTemporary jobs temporary := by
  rcases holds.job follows with ⟨job, isJob, same⟩
  exact ⟨index, job, isJob, same.symm⟩

/-- Who is alone with a temporary file disturbs nobody. -/
theorem unshared_of_single (follows : system.Follows (KeepsTo jobs) post)
    (single : ∀ {one other job job'}, jobs one = some job → jobs other = some job' →
      job.temporary = job'.temporary → one = other) : Unshared system index := by
  intro temporary empties other holds
  rcases (follows.next empties).truncate with ⟨job, isJob, same⟩
  rcases holds.job follows with ⟨job', isJob', same'⟩
  rcases single isJob isJob' (same.symm.trans same') with rfl
  rcases empties with ⟨rest, called⟩
  rcases holds with ⟨bytes, rest', fills⟩ | ⟨path, rest', renames⟩
  · cases called.symm.trans fills
  · cases called.symm.trans renames

/-- A program changes what it empties, what it holds and the place which it renames to. -/
theorem changes_cases {path : Path}
    (called : system.programs[index]? = some (.call request rest))
    (changes : request.Changes path) :
    request = .truncate path ∨ Holds system index path ∨
      ∃ source, request = .rename source path := by
  cases request with
  | createDirAll made => exact changes.elim
  | truncate written =>
      rcases changes with rfl
      exact Or.inl rfl
  | fill written bytes =>
      rcases changes with rfl
      exact Or.inr (Or.inl (Or.inl ⟨bytes, rest, called⟩))
  | rename source target =>
      rcases changes with rfl | rfl
      · exact Or.inr (Or.inl (Or.inr ⟨target, rest, called⟩))
      · exact Or.inr (Or.inr ⟨source, rfl⟩)
  | read path => exact changes.elim

variable (replacing : Replacing jobs post first system)
  (called : system.programs[index]? = some (.call request rest))

include replacing called

/-- The complete file is moved to its place. -/
theorem settled_rename {source path : Path} (renames : request = .rename source path) :
    Settled jobs first path (System.afterCall fileHandler system index request rest).trace
      ((System.afterCall fileHandler system index request rest).state path) := by
  subst renames
  rcases (replacing.follows.next ⟨rest, called⟩).rename with ⟨job, isJob, rfl, rfl, -⟩
  have complete : system.state job.temporary = some job.bytes :=
    replacing.staged (.rename job.temporary job.path) isJob ⟨rest, called⟩
  have answered := fileAnswer_rename complete job.path
  have content : (fileAnswer system.state (.rename job.temporary job.path)).2 job.path =
      some job.bytes := by
    rw [answered]
    exact Function.update_self _ _ _
  have went : (fileAnswer system.state (.rename job.temporary job.path)).1 = .ok () :=
    congrArg Prod.fst answered
  change Settled jobs first job.path _
    ((fileAnswer system.state (.rename job.temporary job.path)).2 job.path)
  rw [content]
  refine .replaced isJob rfl ⟨job.temporary, List.mem_append_right _ ?_⟩
  exact List.mem_singleton.mpr (congrArg (fun answer : Except FsError Unit =>
    (index, (⟨.rename job.temporary job.path, answer⟩ : Exchange fileCalls))) went.symm)

theorem settled_afterCall {path : Path} (isPlace : ¬IsTemporary jobs path) :
    Settled jobs first path (System.afterCall fileHandler system index request rest).trace
      ((System.afterCall fileHandler system index request rest).state path) := by
  by_cases moves : ∃ source, request = .rename source path
  · rcases moves with ⟨source, renames⟩
    exact settled_rename replacing called renames
  · have kept : ¬request.Changes path := by
      intro changes
      rcases changes_cases called changes with rfl | holds | renames
      · rcases (replacing.follows.next ⟨rest, called⟩).truncate with ⟨job, isJob, same⟩
        exact isPlace ⟨index, job, isJob, same.symm⟩
      · exact isPlace (holds.isTemporary replacing.follows)
      · exact moves renames
    have same : (System.afterCall fileHandler system index request rest).state path =
        system.state path := fileAnswer_of_not_changes kept system.state
    rw [same]
    refine (replacing.settled isPlace).append fun source answer isRename => moves ⟨source, ?_⟩
    exact congrArg Sigma.fst isRename

variable (unshared : Unshared system index)

include unshared

theorem alone_afterCall {one other : ℕ} {temporary : Path}
    (holds : Holds (System.afterCall fileHandler system index request rest) one temporary)
    (holdsToo : Holds (System.afterCall fileHandler system index request rest) other temporary) :
    one = other := by
  rcases holds.of_afterCall replacing.follows called with before | ⟨rfl, empties⟩
  · rcases holdsToo.of_afterCall replacing.follows called with beforeToo | ⟨rfl, empties⟩
    · exact replacing.alone before beforeToo
    · subst empties
      exact absurd before (unshared temporary ⟨rest, called⟩ one)
  · rcases holdsToo.of_afterCall replacing.follows called with beforeToo | ⟨rfl, -⟩
    · subst empties
      exact absurd beforeToo (unshared temporary ⟨rest, called⟩ other)
    · rfl

variable (apart : ∀ {index job}, jobs index = some job → ¬IsTemporary jobs job.path)

include apart

/-- What a program holds is changed by no call of another one. -/
theorem not_changes_of_holds {other : ℕ} {temporary : Path} (different : index ≠ other)
    (holds : Holds system other temporary) : ¬request.Changes temporary := by
  intro changes
  rcases changes_cases called changes with rfl | own | ⟨source, rfl⟩
  · exact unshared temporary ⟨rest, called⟩ other holds
  · exact different (replacing.alone own holds)
  · rcases (replacing.follows.next ⟨rest, called⟩).rename with ⟨job, isJob, -, rfl, -⟩
    exact apart isJob (holds.isTemporary replacing.follows)

theorem staged_afterCall {other : ℕ} {job : Replacement} {asked : FileCall}
    (isJob : jobs other = some job)
    (next : (System.afterCall fileHandler system index request rest).Next other asked) :
    job.Staged (System.afterCall fileHandler system index request rest).state asked := by
  by_cases mine : index = other
  · subst mine
    cases asked with
    | fill temporary bytes =>
        rcases truncate_before_fill replacing.follows called next with rfl
        exact Function.update_self _ _ _
    | rename temporary path =>
        rcases fill_before_rename replacing.follows called next with ⟨same, isSame, rfl⟩
        rcases Option.some.inj (isJob.symm.trans isSame) with rfl
        have emptied : system.state temporary = some [] :=
          replacing.staged (.fill temporary job.bytes) isJob ⟨rest, called⟩
        refine (Function.update_self _ _ _).trans ?_
        simp [emptied, overwrite]
    | createDirAll path => trivial
    | truncate path => trivial
    | read path => trivial
  · have nextBefore := (System.next_afterCall_of_ne mine system rest).mp next
    have staged := replacing.staged asked isJob nextBefore
    cases asked with
    | fill temporary bytes =>
        have kept := not_changes_of_holds replacing called unshared apart mine
          (Or.inl ⟨bytes, nextBefore⟩)
        exact (fileAnswer_of_not_changes kept system.state).trans staged
    | rename temporary path =>
        have kept := not_changes_of_holds replacing called unshared apart mine
          (Or.inr ⟨path, nextBefore⟩)
        exact (fileAnswer_of_not_changes kept system.state).trans staged
    | createDirAll path => trivial
    | truncate path => trivial
    | read path => trivial

theorem Replacing.afterCall : Replacing jobs post first
    (System.afterCall fileHandler system index request rest) where
  follows := replacing.follows.afterCall called
  alone := alone_afterCall replacing called unshared
  staged _ := staged_afterCall replacing called unshared apart
  settled := settled_afterCall replacing called
  reads := by
    apply forall_split_append replacing.reads
    intro path answer isRead isPlace
    cases isRead
    exact ⟨system.state path, replacing.settled isPlace, rfl⟩

end Step

theorem not_holds_start {jobs : ℕ → Option Replacement}
    {post : ℕ → List (Exchange fileCalls) → Except ε Unit → Prop} {first : Contents}
    {programs : List (Program fileCalls ε Unit)}
    (follows : (System.start first programs).Follows (KeepsTo jobs) post) (index : ℕ)
    (temporary : Path) : ¬Holds (System.start first programs) index temporary := by
  rintro (⟨bytes, fills⟩ | ⟨path, renames⟩)
  · rcases (follows.next fills).fill with ⟨-, -, -, -, before, answer, grown⟩
    exact absurd grown.symm (List.append_ne_nil_of_right_ne_nil _ (List.cons_ne_nil _ _))
  · rcases (follows.next renames).rename with ⟨job, -, -, -, before, answer, grown⟩
    exact absurd grown.symm (List.append_ne_nil_of_right_ne_nil _ (List.cons_ne_nil _ _))

/-- Replacements of which no two hold a temporary file at once keep the invariant. -/
theorem replacing_exec {jobs : ℕ → Option Replacement}
    {post : ℕ → List (Exchange fileCalls) → Except ε Unit → Prop} {first : Contents}
    {programs : List (Program fileCalls ε Unit)} {schedule : List ℕ}
    (apart : ∀ {index job}, jobs index = some job → ¬IsTemporary jobs job.path)
    (follows : (System.start first programs).Follows (KeepsTo jobs) post)
    (alone : System.Along fileHandler Unshared (System.start first programs) schedule) :
    Replacing jobs post first (System.exec fileHandler (System.start first programs) schedule) := by
  apply System.exec_invariant_along _ alone
  · exact {
      follows := follows
      alone := fun holds => absurd holds (not_holds_start follows _ _)
      staged := by
        intro index job request isJob next
        cases request with
        | fill temporary bytes =>
            exact absurd (Or.inl ⟨bytes, next⟩) (not_holds_start follows index temporary)
        | rename temporary path =>
            exact absurd (Or.inr ⟨path, next⟩) (not_holds_start follows index temporary)
        | createDirAll path => trivial
        | truncate path => trivial
        | read path => trivial
      settled := fun _ => .untouched (by simp [Moved, System.start])
      reads := by simp [System.start] }
  · intro system index replacing unshared
    rcases System.step_cases fileHandler system index with same | ⟨request, rest, called, stepped⟩
    · rw [same]
      exact replacing
    · rw [stepped]
      exact replacing.afterCall called unshared apart

end Exclusion

end Files
