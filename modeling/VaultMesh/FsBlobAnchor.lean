import VaultMesh.Files.FileSystem
import VaultMesh.World

/-!
# The file-system anchor

`FsBlobAnchor` keeps a shard as the file `root/namespace/blob/index.shard`. The
ids are put into the path as they are. The paths of the source are texts, and
what they name is decided by `VaultMesh.Files.FileSystem`.
-/

namespace VaultMesh

open Interaction Files

structure FsBlobAnchor where
  cwd : Location
  root : Path

namespace FsBlobAnchor

def shardName (index : UInt16) : String :=
  paddedIndex index ++ ".shard"

def shardPath (self : FsBlobAnchor) (ref : ShardRef) : Path :=
  self.root.join (Path.ofString ref.objectKey)

def blobDir (self : FsBlobAnchor) (ns : NamespaceId) (blobId : BlobId) : Path :=
  (self.root.join (Path.ofString ns.value)).join (Path.ofString blobId.value)

def backend (error : FsError) : PortError :=
  .backend ("blob-fs io: " ++ error.text)

/-- `Path::parent` of a path which ends with a name. -/
def parent (path : Path) : Path :=
  { path with components := path.components.dropLast }

/-- `path.with_extension("shard.tmp")` of the path of a shard. -/
def temporary (path : Path) (index : UInt16) : Path :=
  { path with components := path.components.dropLast ++ [paddedIndex index ++ ".shard.tmp"] }

/-- Write a temporary file beside the shard, then move it there. -/
def putShard (self : FsBlobAnchor) (files : FileSystem) (ref : ShardRef) (bytes : Bytes) :
    PortResult Unit × FileSystem :=
  let path := self.shardPath ref
  let tmp := temporary path ref.index
  match createDirAll files self.cwd (parent path) with
  | (.error error, made) => (.error (backend error), made)
  | (.ok (), made) =>
      match write made self.cwd tmp bytes with
      | (.error error, written) => (.error (backend error), written)
      | (.ok (), written) =>
          match rename written self.cwd tmp path with
          | (.error error, moved) => (.error (backend error), moved)
          | (.ok (), moved) => (.ok (), moved)

def getShard (self : FsBlobAnchor) (files : FileSystem) (ref : ShardRef) : PortResult Bytes :=
  match read files self.cwd (self.shardPath ref) with
  | .ok bytes => .ok bytes
  | .error .notFound => .error .notFound
  | .error error => .error (backend error)

def deleteBlob (self : FsBlobAnchor) (files : FileSystem) (ns : NamespaceId) (blobId : BlobId) :
    PortResult Unit × FileSystem :=
  match removeDirAll files self.cwd (self.blobDir ns blobId) with
  | (.ok (), removed) => (.ok (), removed)
  | (.error .notFound, removed) => (.ok (), removed)
  | (.error error, removed) => (.error (backend error), removed)

def model (self : FsBlobAnchor) : AnchorModel FileSystem where
  putShard := self.putShard
  getShard := self.getShard
  deleteBlob := self.deleteBlob

/-! ## Paths of shards -/

theorem isDigit_of_mem_paddedIndex {index : UInt16} {letter : Char}
    (present : letter ∈ (paddedIndex index).toList) : letter.isDigit = true := by
  simp only [paddedIndex, String.toList_append, String.toList_ofList, List.mem_append,
    List.mem_replicate] at present
  rcases present with ⟨-, rfl⟩ | digit
  · decide
  · rw [Nat.toString_eq_ofList_toDigits, String.toList_ofList] at digit
    exact Nat.isDigit_of_mem_toDigits (by decide) (by decide) digit

theorem slashFree_paddedIndex (index : UInt16) : '/' ∉ (paddedIndex index).toList :=
  fun present => absurd (isDigit_of_mem_paddedIndex present) (by decide)

theorem slashFree_shardName (index : UInt16) : '/' ∉ (shardName index).toList := by
  simp only [shardName, String.toList_append, List.mem_append, not_or]
  exact ⟨slashFree_paddedIndex index, by decide⟩

theorem split_objectKey (ref : ShardRef) :
    Path.split ref.objectKey =
      Path.split ref.ns.value ++ Path.split ref.blobId.value ++ [shardName ref.index] := by
  have grouped : ref.objectKey =
      ref.ns.value ++ "/" ++ ref.blobId.value ++ "/" ++ shardName ref.index := by
    simp [ShardRef.objectKey, shardName, String.append_assoc]
  rw [grouped, Path.split_append_slash, Path.split_append_slash,
    Path.split_of_slashFree (slashFree_shardName ref.index)]

theorem shardName_moves (index : UInt16) : ¬Stays (shardName index) ∧ shardName index ≠ ".." := by
  have long : 3 ≤ (shardName index).toList.length := by
    simp only [shardName, String.toList_append, List.length_append]
    have suffix : (".shard".toList).length = 6 := rfl
    omega
  refine ⟨?_, ?_⟩
  · rintro (empty | dot)
    · rw [empty] at long
      exact absurd long (by decide)
    · rw [dot] at long
      exact absurd long (by decide)
  · intro dots
    rw [dots] at long
    exact absurd long (by decide)

/-- Where the root path leads, if it does not go up. -/
def home (self : FsBlobAnchor) : Location :=
  self.root.start self.cwd ++ names self.root.components

section Confined

variable {self : FsBlobAnchor} {files files' : FileSystem} {ns : NamespaceId} {blobId : BlobId}

theorem names_append_plain (components : List String) {first second : String}
    (firstPlain : Plain first) (secondPlain : Plain second) :
    names (components ++ [first] ++ [second]) = names components ++ [first, second] := by
  simp [names, firstPlain.moves, secondPlain.moves]

/-- A delete with plain ids removes nothing outside the directory of the blob. -/
theorem deleteBlob_outside (noUp : ".." ∉ self.root.components) (nsPlain : Plain ns.value)
    (blobPlain : Plain blobId.value) {other : Location}
    (outside : ¬(self.home ++ [ns.value, blobId.value]) <+: other) :
    (self.deleteBlob files ns blobId).2 other = files other := by
  have same : (self.deleteBlob files ns blobId).2 =
      (removeDirAll files self.cwd (self.blobDir ns blobId)).2 := by
    unfold deleteBlob
    split <;> next removal => rw [removal]
  rw [same]
  apply removeDirAll_outside
  intro location resolved
  have path : self.blobDir ns blobId =
      ⟨self.root.absolute, self.root.components ++ [ns.value] ++ [blobId.value]⟩ := by
    simp [blobDir, nsPlain.ofString, blobPlain.ofString, Path.join]
  rw [path] at resolved
  have noUpAtAll : ".." ∉ self.root.components ++ [ns.value] ++ [blobId.value] := by
    simp [noUp, Ne.symm nsPlain.descends, Ne.symm blobPlain.descends]
  have reached := resolve_eq_append noUpAtAll resolved
  rw [names_append_plain _ nsPlain blobPlain, ← List.append_assoc] at reached
  rw [reached]
  exact outside

theorem shardPath_of_plain {ref : ShardRef} (nsPlain : Plain ref.ns.value)
    (blobPlain : Plain ref.blobId.value) :
    self.shardPath ref = ⟨self.root.absolute,
      self.root.components ++ [ref.ns.value] ++ [ref.blobId.value] ++ [shardName ref.index]⟩ := by
  have relative : ref.objectKey.toList.head? ≠ some '/' := by
    cases text : ref.ns.value.toList with
    | nil => exact absurd (Or.inl (String.toList_eq_nil_iff.mp text)) nsPlain.moves
    | cons first rest =>
        have slashFree := nsPlain.slashFree
        rw [text, List.mem_cons, not_or] at slashFree
        simp [ShardRef.objectKey, String.toList_append, text, Ne.symm slashFree.1]
  simp [shardPath, Path.ofString, Path.join, relative, split_objectKey,
    Path.split_of_slashFree nsPlain.slashFree, Path.split_of_slashFree blobPlain.slashFree]

/-- Reading a shard with plain ids depends on what lies on the way to it. -/
theorem getShard_congr (noUp : ".." ∉ self.root.components) {ref : ShardRef}
    (nsPlain : Plain ref.ns.value) (blobPlain : Plain ref.blobId.value)
    (same : ∀ part, part <+: names self.root.components ++
        [ref.ns.value, ref.blobId.value, shardName ref.index] →
      files' (self.root.start self.cwd ++ part) = files (self.root.start self.cwd ++ part)) :
    self.getShard files' ref = self.getShard files ref := by
  have moves := shardName_moves ref.index
  rw [getShard, getShard, shardPath_of_plain nsPlain blobPlain, read_congr]
  · simp [noUp, Ne.symm nsPlain.descends, Ne.symm blobPlain.descends, Ne.symm moves.2]
  · intro part onTheWay
    apply same part
    simpa [names, nsPlain.moves, blobPlain.moves, moves.1] using onTheWay

end Confined

/-! ## Writing a shard over others -/

section Writing

variable {self : FsBlobAnchor} {files : FileSystem} {ref : ShardRef} {body : Bytes}

/-- The file which a put would write: its directories can be made, and no directory is in its
place or in that of the temporary file. -/
def target (self : FsBlobAnchor) (files : FileSystem) (ref : ShardRef) : Option Location :=
  let path := self.shardPath ref
  match createDirAll files self.cwd (parent path) with
  | (.error _, _) => none
  | (.ok (), made) =>
      match resolve made self.cwd (temporary path ref.index), resolve made self.cwd path with
      | .ok old, .ok new =>
          if made old = some .dir ∨ made new = some .dir then none else some new
      | _, _ => none

theorem shardPath_ends (self : FsBlobAnchor) (ref : ShardRef) :
    ∃ components, (self.shardPath ref).components = components ++ [shardName ref.index] := by
  rw [shardPath, Path.join]
  split
  · exact ⟨_, split_objectKey ref⟩
  · refine ⟨self.root.components ++ (Path.split ref.ns.value ++ Path.split ref.blobId.value), ?_⟩
    simp [Path.ofString, split_objectKey, List.append_assoc]

theorem temporary_ne_shardName (index index' : UInt16) :
    paddedIndex index ++ ".shard.tmp" ≠ shardName index' := by
  intro same
  have lasts := congrArg (fun text : String => text.toList.getLast?) same
  have first : (paddedIndex index ++ ".shard.tmp").toList.getLast? = some 'p' := by
    rw [String.toList_append, List.getLast?_append_of_ne_nil _ (by decide)]
    rfl
  have second : (shardName index').toList.getLast? = some 'd' := by
    rw [shardName, String.toList_append, List.getLast?_append_of_ne_nil _ (by decide)]
    rfl
  simp only [first, second] at lasts
  exact absurd lasts (by decide)

theorem temporary_moves (index : UInt16) :
    ¬Stays (paddedIndex index ++ ".shard.tmp") ∧ paddedIndex index ++ ".shard.tmp" ≠ ".." := by
  have last : (paddedIndex index ++ ".shard.tmp").toList.getLast? = some 'p' := by
    rw [String.toList_append, List.getLast?_append_of_ne_nil _ (by decide)]
    rfl
  refine ⟨?_, ?_⟩
  · rintro (empty | dot)
    · rw [empty] at last
      exact absurd last (by decide)
    · rw [dot] at last
      exact absurd last (by decide)
  · intro dots
    rw [dots] at last
    exact absurd last (by decide)

theorem getLast?_of_resolve {cwd reached : Location} {path : Path} {components : List String}
    {name : String} (ends : path.components = components ++ [name])
    (moves : ¬Stays name ∧ name ≠ "..") (resolved : resolve files cwd path = .ok reached) :
    reached.getLast? = some name := by
  rw [resolve] at resolved
  split at resolved
  · cases resolved
  · rw [ends] at resolved
    rcases walk_concat_name moves resolved with ⟨parent, -, rfl⟩
    simp

/-- What a put may do: make directories, leave a temporary file, or write its target. -/
theorem putShard_cases (self : FsBlobAnchor) (files : FileSystem) (ref : ShardRef) (body : Bytes) :
    ∃ made, (∀ other entry, files other = some entry → made other = some entry) ∧
      (self.target files ref = none ∧ (self.putShard files ref body).2 = made ∨
      ∃ old, old.getLast? = some (paddedIndex ref.index ++ ".shard.tmp") ∧ made old ≠ some .dir ∧
        (self.target files ref = none ∧
          (self.putShard files ref body).2 = Function.update made old (some (.file body)) ∨
        ∃ new, self.target files ref = some new ∧ made new ≠ some .dir ∧
          (self.putShard files ref body).2 =
            Function.update (Function.update made old none) new (some (.file body)))) := by
  refine ⟨(createDirAll files self.cwd (parent (self.shardPath ref))).2, ?_, ?_⟩
  · intro other entry found
    exact createDirAll_keeps found _ _
  · unfold target putShard
    dsimp only
    split
    · next error made creation =>
        rw [creation]
        exact Or.inl ⟨rfl, rfl⟩
    · next made creation =>
        rw [creation]
        dsimp only
        rw [write]
        cases reachedOld : resolve made self.cwd (temporary (self.shardPath ref) ref.index) with
        | error error => exact Or.inl ⟨rfl, rfl⟩
        | ok old =>
            dsimp only
            by_cases blocked : made old = some .dir
            · rw [if_pos blocked]
              refine Or.inl ⟨?_, rfl⟩
              cases resolve made self.cwd (self.shardPath ref) with
              | error error => rfl
              | ok new => simp [blocked]
            · rw [if_neg blocked]
              refine Or.inr ⟨old, getLast?_of_resolve rfl (temporary_moves ref.index) reachedOld,
                blocked, ?_⟩
              have moved := rename_of_written reachedOld blocked (self.shardPath ref) body
              have ends : ∀ outcome : Except FsError Unit × FileSystem,
                  (match outcome with
                    | (.error error, files) => (.error (backend error), files)
                    | (.ok (), files) => (.ok (), files) : PortResult Unit × FileSystem).2 =
                    outcome.2 := by
                rintro ⟨_ | _, files⟩ <;> rfl
              rw [ends, moved]
              cases resolve made self.cwd (self.shardPath ref) with
              | error error => exact Or.inl ⟨rfl, rfl⟩
              | ok new =>
                  by_cases taken : made new = some .dir
                  · simp [taken]
                  · simp [taken, blocked]

theorem putShard_dir {other : Location} (isDir : files other = some .dir) :
    (self.putShard files ref body).2 other = some .dir := by
  rcases self.putShard_cases files ref body with ⟨made, kept, outcome⟩
  have still := kept other .dir isDir
  rcases outcome with ⟨-, unwritten⟩ | ⟨old, -, oldFile, ⟨-, left⟩ | ⟨new, -, newFile, moved⟩⟩
  · rw [unwritten]
    exact still
  · have notOld : other ≠ old := by
      rintro rfl
      exact oldFile still
    rw [left, Function.update_of_ne notOld]
    exact still
  · have notOld : other ≠ old := by
      rintro rfl
      exact oldFile still
    have notNew : other ≠ new := by
      rintro rfl
      exact newFile still
    rw [moved, Function.update_of_ne notNew, Function.update_of_ne notOld]
    exact still

/-- A stored shard is overwritten exactly by the puts which it is the target of. -/
theorem putShard_file {other : Location} {index : UInt16} {bytes : Bytes}
    (isShard : other.getLast? = some (shardName index)) (found : files other = some (.file bytes)) :
    (self.putShard files ref body).2 other =
      some (.file (if self.target files ref = some other then body else bytes)) := by
  rcases self.putShard_cases files ref body with ⟨made, kept, outcome⟩
  have still := kept other _ found
  have notTemporary : ∀ old : Location,
      old.getLast? = some (paddedIndex ref.index ++ ".shard.tmp") → other ≠ old := by
    rintro old ends rfl
    exact temporary_ne_shardName _ _ (Option.some.inj (ends.symm.trans isShard))
  rcases outcome with ⟨none, unwritten⟩ | ⟨old, ends, -, ⟨none, left⟩ | ⟨new, target, -, moved⟩⟩
  · rw [unwritten, none, if_neg (by simp)]
    exact still
  · rw [left, none, if_neg (by simp), Function.update_of_ne (notTemporary old ends)]
    exact still
  · rw [moved, target]
    by_cases here : new = other
    · subst here
      rw [Function.update_self, if_pos rfl]
    · rw [Function.update_of_ne (Ne.symm here), Function.update_of_ne (notTemporary old ends),
        if_neg (by simpa using here)]
      exact still

theorem getShard_eq_ok {bytes : Bytes} (read : self.getShard files ref = .ok bytes) :
    ∃ location, resolve files self.cwd (self.shardPath ref) = .ok location ∧
      location.getLast? = some (shardName ref.index) ∧ files location = some (.file bytes) := by
  unfold getShard Files.read at read
  cases resolved : resolve files self.cwd (self.shardPath ref) with
  | error error =>
      rw [resolved] at read
      cases error <;> cases read
  | ok location =>
      rw [resolved] at read
      rcases self.shardPath_ends ref with ⟨components, ends⟩
      refine ⟨location, rfl, getLast?_of_resolve ends (shardName_moves _) resolved, ?_⟩
      cases found : files location with
      | none => simp [found] at read
      | some entry =>
          cases entry with
          | dir => simp [found] at read
          | file stored =>
              simp only [found, Except.ok.injEq] at read
              rw [read]

theorem getShard_of_file {location : Location} {bytes : Bytes}
    (resolved : resolve files self.cwd (self.shardPath ref) = .ok location)
    (found : files location = some (.file bytes)) : self.getShard files ref = .ok bytes := by
  rw [getShard, Files.read, resolved]
  simp only [found]

end Writing

end FsBlobAnchor

end VaultMesh
