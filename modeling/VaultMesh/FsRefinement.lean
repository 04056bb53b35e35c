import VaultMesh.AnchorRefinement
import VaultMesh.Confinement
import VaultMesh.Files.Directories
import VaultMesh.ShardAddresses

/-!
# The file system anchor is a map of shards

`FsBlobAnchor` keeps each shard in a file of its own, two directories below its
root. As long as the ids are plain names, the tree of files stands for a map of
shards: a put makes the directories it needs and replaces one file, a read finds
a file or finds that it is missing, and a delete takes away one directory with
everything in it.
-/

namespace VaultMesh

open Interaction Coding Files

namespace FsBlobAnchor

/-- Ids which are plain file names. -/
structure Usable (ns : NamespaceId) (blobId : BlobId) : Prop where
  nsPlain : Plain ns.value
  blobPlain : Plain blobId.value
  nsFree : NulFree ns.value
  blobFree : NulFree blobId.value

/-- The root does not go up and names a path. -/
structure Rooted (anchor : FsBlobAnchor) : Prop where
  noUp : ".." ∉ anchor.root.components
  clean : anchor.root.hasNul = false

def base (self : FsBlobAnchor) : Location :=
  self.root.start self.cwd

/-- The names on the way from the base to the directory of a blob. -/
def way (self : FsBlobAnchor) (ns : NamespaceId) (blobId : BlobId) : List String :=
  names self.root.components ++ [ns.value, blobId.value]

/-- A file in the directory of the blob. -/
def place (self : FsBlobAnchor) (ns : NamespaceId) (blobId : BlobId) (name : String) : Location :=
  self.base ++ self.way ns blobId ++ [name]

def stagingName (index : UInt16) : String :=
  paddedIndex index ++ ".shard.tmp"

/-- The files below the root are the shards of the map, and nothing is in the way of others. -/
structure Stands (anchor : FsBlobAnchor) (files : FileSystem) (shards : ShardMap) : Prop where
  based : files anchor.base = some .dir
  clear : ∀ {ns blobId}, Usable ns blobId → Clear files anchor.base (anchor.way ns blobId)
  inside : ∀ {ns blobId} name, Usable ns blobId → files (anchor.place ns blobId name) ≠ none →
    Built files anchor.base (anchor.way ns blobId)
  held : ∀ {ref : ShardRef}, Usable ref.ns ref.blobId →
    files (anchor.place ref.ns ref.blobId (shardName ref.index)) = (shards ref).map .file
  unblocked : ∀ {ns blobId} index, Usable ns blobId →
    files (anchor.place ns blobId (stagingName index)) ≠ some .dir

section Paths

variable {self : FsBlobAnchor} {files : FileSystem} {ns : NamespaceId} {blobId : BlobId}
  {name : String}

theorem names_components (usable : Usable ns blobId) :
    names (self.root.components ++ [ns.value] ++ [blobId.value]) = self.way ns blobId :=
  names_append_plain _ usable.nsPlain usable.blobPlain

theorem Rooted.noUp_components (rooted : self.Rooted) (usable : Usable ns blobId) :
    ".." ∉ self.root.components ++ [ns.value] ++ [blobId.value] := by
  simp [rooted.noUp, Ne.symm usable.nsPlain.descends, Ne.symm usable.blobPlain.descends]

theorem hasNul_eq_false_iff {path : Files.Path} :
    path.hasNul = false ↔ ∀ component ∈ path.components, NulFree component := by
  simp [Files.Path.hasNul, NulFree]

/-- A file beside the shards of the blob. -/
def fileIn (self : FsBlobAnchor) (ns : NamespaceId) (blobId : BlobId) (name : String) :
    Files.Path :=
  ⟨self.root.absolute, self.root.components ++ [ns.value] ++ [blobId.value] ++ [name]⟩

def dirOf (self : FsBlobAnchor) (ns : NamespaceId) (blobId : BlobId) : Files.Path :=
  ⟨self.root.absolute, self.root.components ++ [ns.value] ++ [blobId.value]⟩

theorem Rooted.clean_dirOf (rooted : self.Rooted) (usable : Usable ns blobId) :
    (self.dirOf ns blobId).hasNul = false := by
  have clean := hasNul_eq_false_iff.mp rooted.clean
  rw [hasNul_eq_false_iff]
  intro component present
  simp only [dirOf, List.append_assoc, List.mem_append, List.mem_singleton] at present
  rcases present with ofRoot | rfl | rfl
  · exact clean component ofRoot
  · exact usable.nsFree
  · exact usable.blobFree

theorem Rooted.clean_fileIn (rooted : self.Rooted) (usable : Usable ns blobId)
    (free : NulFree name) : (self.fileIn ns blobId name).hasNul = false := by
  have clean := hasNul_eq_false_iff.mp (rooted.clean_dirOf usable)
  rw [hasNul_eq_false_iff]
  intro component present
  rcases List.mem_append.mp present with ofDir | here
  · exact clean component ofDir
  · rw [List.mem_singleton.mp here]
    exact free

/-- In a directory which is there, a file name leads to its place. -/
theorem Rooted.resolve_fileIn (rooted : self.Rooted) (usable : Usable ns blobId)
    (free : NulFree name) (moves : ¬Stays name ∧ name ≠ "..")
    (built : Built files self.base (self.way ns blobId)) :
    resolve files self.cwd (self.fileIn ns blobId name) = .ok (self.place ns blobId name) := by
  rw [← names_components usable] at built
  rw [resolve, rooted.clean_fileIn usable free, if_neg Bool.false_ne_true, place,
    ← names_components usable]
  exact built.walk_concat (rooted.noUp_components usable) moves

/-- The names on the way from the base to the directory of a namespace. -/
def nsWay (self : FsBlobAnchor) (ns : NamespaceId) : List String :=
  names self.root.components ++ [ns.value]

theorem way_eq_nsWay (self : FsBlobAnchor) (ns : NamespaceId) (blobId : BlobId) :
    self.way ns blobId = self.nsWay ns ++ [blobId.value] := by
  simp [way, nsWay]

theorem nsWay_prefix_way (self : FsBlobAnchor) (ns : NamespaceId) (blobId : BlobId) :
    self.nsWay ns <+: self.way ns blobId := by
  rw [way_eq_nsWay]
  exact List.prefix_append _ _

theorem names_nsComponents (usable : Usable ns blobId) :
    names (self.root.components ++ [ns.value]) = self.nsWay ns := by
  simp [names, nsWay, usable.nsPlain.moves]

theorem Rooted.noUp_nsComponents (rooted : self.Rooted) (usable : Usable ns blobId) :
    ".." ∉ self.root.components ++ [ns.value] := by
  simp [rooted.noUp, Ne.symm usable.nsPlain.descends]

/-- In a namespace which is there, a blob id leads to the place of its directory. -/
theorem Rooted.resolve_dirOf (rooted : self.Rooted) (usable : Usable ns blobId)
    (built : Built files self.base (self.nsWay ns)) :
    resolve files self.cwd (self.dirOf ns blobId) = .ok (self.base ++ self.way ns blobId) := by
  rw [← names_nsComponents usable] at built
  rw [resolve, rooted.clean_dirOf usable, if_neg Bool.false_ne_true]
  refine (built.walk_concat (rooted.noUp_nsComponents usable)
    ⟨usable.blobPlain.moves, usable.blobPlain.descends⟩).trans ?_
  rw [names_nsComponents usable, way_eq_nsWay, List.append_assoc]

theorem shardPath_eq (self : FsBlobAnchor) {ref : ShardRef} (usable : Usable ref.ns ref.blobId) :
    self.shardPath ref = self.fileIn ref.ns ref.blobId (shardName ref.index) :=
  shardPath_of_plain usable.nsPlain usable.blobPlain

theorem blobDir_eq (self : FsBlobAnchor) (usable : Usable ns blobId) :
    self.blobDir ns blobId = self.dirOf ns blobId := by
  simp [blobDir, dirOf, usable.nsPlain.ofString, usable.blobPlain.ofString, Files.Path.join]

theorem parent_fileIn (self : FsBlobAnchor) (ns : NamespaceId) (blobId : BlobId) (name : String) :
    parent (self.fileIn ns blobId name) = self.dirOf ns blobId := by
  simp [parent, fileIn, dirOf]

theorem temporary_fileIn (self : FsBlobAnchor) (ns : NamespaceId) (blobId : BlobId)
    (name : String) (index : UInt16) :
    temporary (self.fileIn ns blobId name) index =
      self.fileIn ns blobId (stagingName index) := by
  simp [temporary, fileIn, stagingName]

theorem place_inj {ns' : NamespaceId} {blobId' : BlobId} {name' : String} :
    self.place ns blobId name = self.place ns' blobId' name' ↔
      ns = ns' ∧ blobId = blobId' ∧ name = name' := by
  cases ns
  cases ns'
  cases blobId
  cases blobId'
  simp [place, way, List.append_assoc]

/-- A file is not on the way to any directory of a blob. -/
theorem place_ne_of_onTheWay {ns' : NamespaceId} {blobId' : BlobId} {part : List String}
    (onTheWay : part <+: self.way ns' blobId') : self.base ++ part ≠ self.place ns blobId name := by
  intro same
  have lengths := congrArg List.length same
  have short := onTheWay.length_le
  simp only [place, way, List.length_append, List.length_cons, List.length_nil] at lengths short
  omega

end Paths

/-! ## Put -/

section Put

variable {self : FsBlobAnchor} {files : FileSystem} {shards : ShardMap} {ref : ShardRef}
  {bytes : Bytes}

/-- The tree with the directory of the blob made. -/
def opened (self : FsBlobAnchor) (files : FileSystem) (ref : ShardRef) : FileSystem :=
  madeDirs files self.base (self.way ref.ns ref.blobId)

/-- What a put leaves: its directory, no temporary file, and the shard. -/
def replaced (self : FsBlobAnchor) (files : FileSystem) (ref : ShardRef) (bytes : Bytes) :
    FileSystem :=
  Function.update
    (Function.update (self.opened files ref)
      (self.place ref.ns ref.blobId (stagingName ref.index)) none)
    (self.place ref.ns ref.blobId (shardName ref.index)) (some (.file bytes))

theorem opened_place (self : FsBlobAnchor) (files : FileSystem) (ref : ShardRef)
    (ns : NamespaceId) (blobId : BlobId) (name : String) :
    self.opened files ref (self.place ns blobId name) = files (self.place ns blobId name) :=
  madeDirs_off_way fun _ onTheWay _ same => place_ne_of_onTheWay onTheWay same.symm

/-- Opening adds directories on the way to the blob and nothing else. -/
theorem opened_cases (self : FsBlobAnchor) (files : FileSystem) (ref : ShardRef)
    (part : List String) :
    self.opened files ref (self.base ++ part) = some .dir ∨
      self.opened files ref (self.base ++ part) = files (self.base ++ part) := by
  by_cases onTheWay : part <+: self.way ref.ns ref.blobId ∧ part ≠ []
  · exact Or.inl (madeDirs_on_way onTheWay.1 onTheWay.2)
  · refine Or.inr (madeDirs_off_way ?_)
    intro other otherOnTheWay nonempty same
    rcases List.append_cancel_left same with rfl
    exact onTheWay ⟨otherOnTheWay, nonempty⟩

theorem opened_built (based : files self.base = some .dir) (ref : ShardRef) :
    Built (self.opened files ref) self.base (self.way ref.ns ref.blobId) := by
  intro part onTheWay
  by_cases nonempty : part = []
  · subst nonempty
    rw [List.append_nil]
    rcases opened_cases self files ref [] with isDir | same
    · simpa using isDir
    · rw [List.append_nil] at same
      rw [same, based]
  · exact madeDirs_on_way onTheWay nonempty

theorem replaced_of_onTheWay (self : FsBlobAnchor) (files : FileSystem) (ref : ShardRef)
    (bytes : Bytes) {ns : NamespaceId} {blobId : BlobId} {part : List String}
    (onTheWay : part <+: self.way ns blobId) :
    self.replaced files ref bytes (self.base ++ part) =
      self.opened files ref (self.base ++ part) := by
  rw [replaced, Function.update_of_ne (place_ne_of_onTheWay onTheWay),
    Function.update_of_ne (place_ne_of_onTheWay onTheWay)]

theorem nulFree_stagingName (index : UInt16) : NulFree (stagingName index) := by
  intro present
  simp only [stagingName, String.toList_append, List.mem_append] at present
  rcases present with digit | suffix
  · exact absurd (isDigit_of_mem_paddedIndex digit) (by decide)
  · exact absurd suffix (by decide)

theorem stagingName_ne_shardName (index index' : UInt16) :
    stagingName index ≠ shardName index' :=
  temporary_ne_shardName index index'

/-- Nothing stands in the way of a put. -/
theorem Stands.putShard (stands : self.Stands files shards) (rooted : self.Rooted)
    (usable : Usable ref.ns ref.blobId) (bytes : Bytes) :
    self.putShard files ref bytes = (.ok (), self.replaced files ref bytes) := by
  have built := opened_built stands.based ref
  have made : createDirAll files self.cwd (self.dirOf ref.ns ref.blobId) =
      (.ok (), self.opened files ref) := by
    have clear := stands.clear usable
    rw [createDirAll, rooted.clean_dirOf usable, if_neg Bool.false_ne_true, opened]
    rw [← names_components usable] at clear ⊢
    exact clear.makeDirs (rooted.noUp_components usable)
  have staged : write (self.opened files ref) self.cwd
      (self.fileIn ref.ns ref.blobId (stagingName ref.index)) bytes =
        (.ok (), Function.update (self.opened files ref)
          (self.place ref.ns ref.blobId (stagingName ref.index)) (some (.file bytes))) := by
    have free := stands.unblocked ref.index usable
    rw [← opened_place self files ref] at free
    rw [write, rooted.resolve_fileIn usable (nulFree_stagingName _) (temporary_moves _) built]
    dsimp only
    rw [if_neg free]
  have moved : rename (Function.update (self.opened files ref)
        (self.place ref.ns ref.blobId (stagingName ref.index)) (some (.file bytes))) self.cwd
      (self.fileIn ref.ns ref.blobId (stagingName ref.index))
      (self.fileIn ref.ns ref.blobId (shardName ref.index)) =
        (.ok (), self.replaced files ref bytes) := by
    have stillBuilt : Built (Function.update (self.opened files ref)
        (self.place ref.ns ref.blobId (stagingName ref.index)) (some (.file bytes)))
        self.base (self.way ref.ns ref.blobId) :=
      built.congr fun part onTheWay => Function.update_of_ne (place_ne_of_onTheWay onTheWay) _ _
    have apart : self.place ref.ns ref.blobId (shardName ref.index) ≠
        self.place ref.ns ref.blobId (stagingName ref.index) := by
      intro same
      exact stagingName_ne_shardName _ _ (place_inj.mp same).2.2.symm
    have noDir : self.opened files ref (self.place ref.ns ref.blobId (shardName ref.index)) ≠
        some .dir := by
      rw [opened_place, stands.held usable]
      cases shards ref <;> simp
    rw [rename, rooted.resolve_fileIn usable (nulFree_stagingName _) (temporary_moves _) stillBuilt,
      rooted.resolve_fileIn usable (nulFree_shardName _) (shardName_moves _) stillBuilt]
    simp only [Function.update_self, Function.update_of_ne apart, if_neg noDir,
      Function.update_idem, replaced]
  rw [FsBlobAnchor.putShard, shardPath_eq self usable, parent_fileIn, temporary_fileIn]
  simp only [made, staged, moved]

theorem Stands.replaced (stands : self.Stands files shards) (usable : Usable ref.ns ref.blobId)
    (bytes : Bytes) :
    self.Stands (self.replaced files ref bytes) (Function.update shards ref (some bytes)) := by
  have dirsKept : ∀ part, files (self.base ++ part) = some .dir →
      self.opened files ref (self.base ++ part) = some .dir := by
    intro part isDir
    rcases opened_cases self files ref part with made | same
    · exact made
    · rw [same, isDir]
  constructor
  · have here := replaced_of_onTheWay self files ref bytes
      (List.nil_prefix (l := self.way ref.ns ref.blobId))
    rw [List.append_nil] at here
    rw [here]
    simpa using dirsKept [] (by simpa using stands.based)
  · intro ns blobId other part onTheWay
    rw [replaced_of_onTheWay self files ref bytes onTheWay]
    rcases opened_cases self files ref part with made | same
    · exact Or.inr made
    · rw [same]
      exact stands.clear other part onTheWay
  · intro ns blobId name other present
    by_cases mine : ns = ref.ns ∧ blobId = ref.blobId
    · rcases mine with ⟨rfl, rfl⟩
      exact (opened_built stands.based ref).congr fun part onTheWay =>
        replaced_of_onTheWay self files ref bytes onTheWay
    · have elsewhere : ∀ name', self.place ns blobId name ≠
          self.place ref.ns ref.blobId name' := by
        intro name' same
        rcases place_inj.mp same with ⟨sameNs, sameBlob, -⟩
        exact mine ⟨sameNs, sameBlob⟩
      rw [FsBlobAnchor.replaced, Function.update_of_ne (elsewhere _),
        Function.update_of_ne (elsewhere _), opened_place] at present
      intro part onTheWay
      rw [replaced_of_onTheWay self files ref bytes onTheWay]
      exact dirsKept part (stands.inside name other present part onTheWay)
  · intro other otherUsable
    by_cases same : other = ref
    · subst same
      rw [FsBlobAnchor.replaced, Function.update_self, Function.update_self]
      rfl
    · have elsewhere : self.place other.ns other.blobId (shardName other.index) ≠
          self.place ref.ns ref.blobId (shardName ref.index) := by
        intro samePlace
        rcases place_inj.mp samePlace with ⟨sameNs, sameBlob, sameName⟩
        apply same
        rcases other with ⟨ns, blobId, index⟩
        rcases ref with ⟨ns', blobId', index'⟩
        rcases shardName_injective sameName with rfl
        simp only at sameNs sameBlob
        rw [sameNs, sameBlob]
      have unstaged : self.place other.ns other.blobId (shardName other.index) ≠
          self.place ref.ns ref.blobId (stagingName ref.index) := by
        intro samePlace
        exact stagingName_ne_shardName _ _ (place_inj.mp samePlace).2.2.symm
      rw [FsBlobAnchor.replaced, Function.update_of_ne elsewhere, Function.update_of_ne unstaged,
        opened_place, Function.update_of_ne same]
      exact stands.held otherUsable
  · intro ns blobId index other
    have elsewhere : self.place ns blobId (stagingName index) ≠
        self.place ref.ns ref.blobId (shardName ref.index) := by
      intro samePlace
      exact stagingName_ne_shardName _ _ (place_inj.mp samePlace).2.2
    rw [FsBlobAnchor.replaced, Function.update_of_ne elsewhere]
    by_cases same : self.place ns blobId (stagingName index) =
        self.place ref.ns ref.blobId (stagingName ref.index)
    · rw [same, Function.update_self]
      simp
    · rw [Function.update_of_ne same, opened_place]
      exact stands.unblocked index other

end Put

/-! ## Get -/

section Get

variable {self : FsBlobAnchor} {files : FileSystem} {shards : ShardMap} {ref : ShardRef}
  {ns : NamespaceId} {blobId : BlobId}

/-- Where a directory is missing, no shard is. -/
theorem Stands.none_of_gap (stands : self.Stands files shards) (usable : Usable ref.ns ref.blobId)
    (gap : Gap files self.base (self.way ref.ns ref.blobId)) : shards ref = none := by
  by_contra present
  rcases Option.ne_none_iff_exists'.mp present with ⟨bytes, stored⟩
  have held := stands.held usable
  rw [stored] at held
  have built := stands.inside (shardName ref.index) usable (by simp [held])
  exact built.not_gap gap

theorem Stands.getShard (stands : self.Stands files shards) (rooted : self.Rooted)
    (usable : Usable ref.ns ref.blobId) : self.getShard files ref = shards.read ref := by
  rw [FsBlobAnchor.getShard, shardPath_eq self usable, Files.read]
  rcases (stands.clear usable).built_or_gap with built | gap
  · rw [rooted.resolve_fileIn usable (nulFree_shardName _) (shardName_moves _) built]
    dsimp only
    rw [stands.held usable, ShardMap.read]
    cases shards ref <;> rfl
  · have clear := stands.clear usable
    have lost : resolve files self.cwd (self.fileIn ref.ns ref.blobId (shardName ref.index)) =
        .error .notFound := by
      rw [resolve, rooted.clean_fileIn usable (nulFree_shardName _), if_neg Bool.false_ne_true]
      rw [← names_components usable] at clear gap
      exact clear.walk_concat (rooted.noUp_components usable) gap _
    rw [lost, ShardMap.read, stands.none_of_gap usable gap]

end Get

/-! ## Delete -/

section Delete

variable {self : FsBlobAnchor} {files : FileSystem} {shards : ShardMap} {ns ns' : NamespaceId}
  {blobId blobId' : BlobId}

/-- The tree without the directory of the blob. -/
def cleared (self : FsBlobAnchor) (files : FileSystem) (ns : NamespaceId) (blobId : BlobId) :
    FileSystem :=
  fun other => if self.base ++ self.way ns blobId <+: other then none else files other

theorem way_prefix_place {name : String}
    (below : self.base ++ self.way ns blobId <+: self.place ns' blobId' name) :
    ns = ns' ∧ blobId = blobId' := by
  simp only [place, way, List.append_assoc, List.prefix_append_right_inj] at below
  rcases List.cons_prefix_cons.mp below with ⟨sameNs, rest⟩
  rcases List.cons_prefix_cons.mp rest with ⟨sameBlob, -⟩
  exact ⟨congrArg NamespaceId.mk sameNs, congrArg BlobId.mk sameBlob⟩

theorem eq_of_way_prefix {part : List String} (onTheWay : part <+: self.way ns' blobId')
    (below : self.base ++ self.way ns blobId <+: self.base ++ part) :
    ns = ns' ∧ blobId = blobId' := by
  have inside : self.base ++ self.way ns blobId <+: self.place ns' blobId' "" := by
    refine below.trans ?_
    rw [place, List.append_assoc, List.prefix_append_right_inj]
    exact onTheWay.trans (List.prefix_append _ _)
  exact way_prefix_place inside

theorem Stands.cleared (stands : self.Stands files shards) (ns : NamespaceId) (blobId : BlobId) :
    self.Stands (self.cleared files ns blobId) (shards.erase ns blobId) := by
  constructor
  · have above : ¬self.base ++ self.way ns blobId <+: self.base := by
      intro below
      have lengths := below.length_le
      simp only [way, List.length_append, List.length_cons, List.length_nil] at lengths
      omega
    rw [FsBlobAnchor.cleared, if_neg above]
    exact stands.based
  · intro ns' blobId' usable part onTheWay
    rw [FsBlobAnchor.cleared]
    split
    · exact Or.inl rfl
    · exact stands.clear usable part onTheWay
  · intro ns' blobId' name usable present
    rw [FsBlobAnchor.cleared] at present
    split at present
    · exact absurd rfl present
    · next outside =>
        refine (stands.inside name usable present).congr ?_
        intro part onTheWay
        rw [FsBlobAnchor.cleared, if_neg]
        intro below
        rcases eq_of_way_prefix onTheWay below with ⟨rfl, rfl⟩
        exact outside (List.prefix_append _ _)
  · intro ref usable
    rw [FsBlobAnchor.cleared, ShardMap.erase]
    by_cases mine : ref.ns = ns ∧ ref.blobId = blobId
    · rcases mine with ⟨rfl, rfl⟩
      have below : self.base ++ self.way ref.ns ref.blobId <+:
          self.place ref.ns ref.blobId (shardName ref.index) := List.prefix_append _ _
      rw [if_pos below, if_pos ⟨rfl, rfl⟩]
      rfl
    · rw [if_neg mine, if_neg, stands.held usable]
      intro below
      rcases way_prefix_place below with ⟨rfl, rfl⟩
      exact mine ⟨rfl, rfl⟩
  · intro ns' blobId' index usable
    rw [FsBlobAnchor.cleared]
    split
    · simp
    · exact stands.unblocked index usable

/-- If the directory of the blob is missing there is nothing to clear. -/
theorem Stands.erase_of_missing (stands : self.Stands files shards) (usable : Usable ns blobId)
    (gap : Gap files self.base (self.way ns blobId)) :
    self.Stands files (shards.erase ns blobId) := by
  refine ⟨stands.based, stands.clear, stands.inside, ?_, stands.unblocked⟩
  intro ref refUsable
  rw [ShardMap.erase]
  by_cases mine : ref.ns = ns ∧ ref.blobId = blobId
  · rcases mine with ⟨rfl, rfl⟩
    rw [if_pos ⟨rfl, rfl⟩, stands.held refUsable, stands.none_of_gap usable gap]
  · rw [if_neg mine, stands.held refUsable]

/-- Removing the directory of a blob takes everything below it. -/
theorem Rooted.removeDirAll (rooted : self.Rooted) (usable : Usable ns blobId)
    (built : Built files self.base (self.way ns blobId)) :
    Files.removeDirAll files self.cwd (self.dirOf ns blobId) =
      (.ok (), self.cleared files ns blobId) := by
  have above := built.front (self.nsWay_prefix_way ns blobId)
  have stillAbove : Built (emptied files (self.base ++ self.way ns blobId)) self.base
      (self.nsWay ns) := by
    refine above.congr fun part onTheWay => ?_
    rw [emptied, if_neg]
    rintro ⟨below, -⟩
    have lengths := below.length_le
    have short := onTheWay.length_le
    simp only [way_eq_nsWay, List.length_append, List.length_singleton] at lengths
    omega
  have last : ((self.dirOf ns blobId).components.filter
      fun component => decide (component ≠ "")).getLast? = some blobId.value := by
    have nonempty : blobId.value ≠ "" := fun empty => usable.blobPlain.moves (Or.inl empty)
    simp [dirOf, nonempty]
  have notDot : blobId.value ≠ "." := fun dot => usable.blobPlain.moves (Or.inr dot)
  have notTop : self.base ++ self.way ns blobId ≠ [] := by simp [way]
  rw [Files.removeDirAll, rooted.resolve_dirOf usable above]
  dsimp only
  rw [built _ (List.prefix_refl _)]
  dsimp only
  rw [removeDir, rooted.resolve_dirOf usable stillAbove]
  simp only [last, Option.some.injEq, notDot, usable.blobPlain.descends, notTop, if_false]
  refine Prod.ext rfl (funext fun other => ?_)
  dsimp only
  by_cases here : other = self.base ++ self.way ns blobId
  · subst here
    simp [FsBlobAnchor.cleared]
  · rw [Function.update_of_ne here, emptied, FsBlobAnchor.cleared]
    simp [Ne.symm here]

/-- A directory which is missing is not found, and nothing is removed. -/
theorem Rooted.removeDirAll_of_gap (rooted : self.Rooted) (usable : Usable ns blobId)
    (clear : Clear files self.base (self.way ns blobId))
    (gap : Gap files self.base (self.way ns blobId)) :
    Files.removeDirAll files self.cwd (self.dirOf ns blobId) = (.error .notFound, files) := by
  have clearAbove := clear.front (self.nsWay_prefix_way ns blobId)
  rw [Files.removeDirAll]
  rcases clearAbove.built_or_gap with above | gapAbove
  · rcases gap with ⟨part, onTheWay, missing⟩
    rw [way_eq_nsWay] at onTheWay
    rcases List.prefix_concat_iff.mp onTheWay with whole | shorter
    · rw [rooted.resolve_dirOf usable above]
      dsimp only
      rw [way_eq_nsWay, ← whole, missing]
    · exact absurd ⟨part, shorter, missing⟩ above.not_gap
  · rw [← names_nsComponents usable] at clearAbove gapAbove
    have lost := clearAbove.walk_concat (rooted.noUp_nsComponents usable) gapAbove blobId.value
    rw [resolve, rooted.clean_dirOf usable, if_neg Bool.false_ne_true]
    have same : walk files ((self.dirOf ns blobId).start self.cwd)
        (self.dirOf ns blobId).components = .error .notFound := lost
    rw [same]

/-- A delete leaves nothing of the blob, whether its directory was there or not. -/
theorem Stands.deleteBlob (stands : self.Stands files shards) (rooted : self.Rooted)
    (usable : Usable ns blobId) :
    (self.deleteBlob files ns blobId).1 = .ok () ∧
      self.Stands (self.deleteBlob files ns blobId).2 (shards.erase ns blobId) := by
  have clear := stands.clear usable
  rw [FsBlobAnchor.deleteBlob, blobDir_eq self usable]
  rcases clear.built_or_gap with built | gap
  · rw [rooted.removeDirAll usable built]
    exact ⟨rfl, stands.cleared ns blobId⟩
  · rw [rooted.removeDirAll_of_gap usable clear gap]
    exact ⟨rfl, stands.erase_of_missing usable gap⟩

end Delete

/-! ## The anchor as a map -/

section Refinement

variable {anchor : FsBlobAnchor}

/-- The anchor behaves as the map of shards for all ids which are plain names. -/
theorem Rooted.refines (rooted : anchor.Rooted) : anchor.model.Refines Usable anchor.Stands := by
  constructor
  · intro files shards ref bytes stands usable
    have put : anchor.model.putShard files ref bytes = (.ok (), anchor.replaced files ref bytes) :=
      stands.putShard rooted usable bytes
    rw [put]
    exact ⟨rfl, stands.replaced usable bytes⟩
  · intro files shards ref stands usable
    exact stands.getShard rooted usable
  · intro files shards ns blobId stands usable
    exact stands.deleteBlob rooted usable

/-- A root with nothing below it stands for the empty map. -/
theorem stands_of_fresh {files : FileSystem} (based : files anchor.base = some .dir)
    (above : Clear files anchor.base (names anchor.root.components))
    (below : ∀ part, part ≠ [] →
      files (anchor.base ++ (names anchor.root.components ++ part)) = none) :
    anchor.Stands files fun _ => none := by
  have empty : ∀ ns blobId name, files (anchor.place ns blobId name) = none := by
    intro ns blobId name
    have nothing := below [ns.value, blobId.value, name] (by simp)
    simpa [place, way] using nothing
  refine ⟨based, ?_, ?_, ?_, ?_⟩
  · intro ns blobId usable part onTheWay
    rcases List.prefix_or_prefix_of_prefix onTheWay (List.prefix_append _ _) with upTo | beyond
    · exact above part upTo
    · rcases beyond with ⟨rest, rfl⟩
      by_cases atRoot : rest = []
      · subst atRoot
        rw [List.append_nil]
        exact above _ (List.prefix_refl _)
      · exact Or.inl (below rest atRoot)
  · intro ns blobId name usable present
    exact absurd (empty ns blobId name) present
  · intro ref usable
    rw [empty]
    rfl
  · intro ns blobId index usable
    rw [empty]
    simp

theorem nulFree_freshId {env : Environment} (nulFree : ∀ tick, NulFree (env.uuid tick))
    (tick : ℕ) : NulFree (env.freshId tick "blob") := by
  have rest := nulFree tick
  simp only [NulFree, Environment.freshId, String.toList_append, List.mem_append, not_or] at rest ⊢
  exact ⟨⟨by decide, by decide⟩, rest⟩

end Refinement

end FsBlobAnchor

/--
A node which keeps its shards in files cannot be told from one which keeps them in
a map: whatever requests it serves, in whatever order their calls are answered, it
makes the same calls, gets the same answers and comes to the same ends and the same
manifests, and its files stand for the map all the time. Ids are generated without
slashes and NUL bytes, registered namespaces are plain names, and a delete names a
plain id or is under a hold.
-/
theorem files_refine_shardMap {env : Environment} (fresh : Function.Injective env.uuid)
    (slashFree : ∀ tick, '/' ∉ (env.uuid tick).toList)
    (nulFree : ∀ tick, FsBlobAnchor.NulFree (env.uuid tick)) {anchor : FsBlobAnchor}
    (rooted : anchor.Rooted) (node : Node) {first : World FileSystem}
    (none : ∀ ns blobId, first.store.getManifest ns blobId = none)
    (plainNamespaces : ∀ ns owned, first.store.getNamespace ns = some owned →
      Plain ns.value ∧ FsBlobAnchor.NulFree ns.value)
    {requests : List Request}
    (harmless : ∀ request ∈ requests, request.Harmless first.store FsBlobAnchor.Usable)
    {shards : ShardMap} (stood : anchor.Stands first.anchor shards) (schedule : List ℕ) :
    let onFiles := System.exec (world env anchor.model)
      (System.start first (requests.map (Request.program node))) schedule
    let onMap := System.exec (world env shardMap)
      (System.start ⟨first.store, shards, first.signed, first.tick⟩
        (requests.map (Request.program node))) schedule
    onFiles.programs = onMap.programs ∧ onFiles.trace = onMap.trace ∧
      onFiles.state.store = onMap.state.store ∧
      anchor.Stands onFiles.state.anchor onMap.state.anchor := by
  intro onFiles onMap
  have reachable : Reachable env first.store FsBlobAnchor.Usable := by
    intro ns owned known tick
    rcases plainNamespaces ns owned known with ⟨nsPlain, nsFree⟩
    exact ⟨nsPlain, plain_freshId slashFree tick, nsFree,
      FsBlobAnchor.nulFree_freshId nulFree tick⟩
  have lockstep : System.Lockstep _ onFiles onMap :=
    rooted.refines.exec fresh none reachable harmless stood schedule
  exact ⟨lockstep.programs, lockstep.trace, lockstep.states.store, lockstep.states.anchor⟩

theorem dataAnchor_rooted : dataAnchor.Rooted :=
  ⟨by decide, by decide⟩

theorem dataWorld_stands : dataAnchor.Stands dataWorld.anchor fun _ => none := by
  refine FsBlobAnchor.stands_of_fresh rfl ?_ ?_
  · intro part onTheWay
    have onRoot : part <+: [] ++ ["data"] := onTheWay
    rcases List.prefix_concat_iff.mp onRoot with rfl | above
    · right
      rfl
    · rcases List.prefix_nil.mp above with rfl
      right
      rfl
  · intro part nonempty
    simp [dataWorld, dataAnchor, FsBlobAnchor.base, Files.Path.start, names, Stays, nonempty]

/-- The same request over a map of shards. -/
def dataMapped : World ShardMap :=
  (System.exec (world sampleEnvironment shardMap)
    (System.start ⟨dataWorld.store, fun _ => none, dataWorld.signed, dataWorld.tick⟩
      (dataRequests.map (Request.program replicatingNode))) (List.replicate 10 0)).state

theorem files_refine_shardMap_stored :
    dataAnchor.Stands dataStored.anchor dataMapped.anchor ∧
      dataMapped.anchor ⟨⟨"ns-1"⟩, ⟨"blob-5"⟩, 0⟩ = some [7] := by
  have slashFree : ∀ tick, '/' ∉ (sampleEnvironment.uuid tick).toList :=
    fun tick slash => absurd (isDigit_of_mem_sampleUuid slash) (by decide)
  have nulFree : ∀ tick, FsBlobAnchor.NulFree (sampleEnvironment.uuid tick) :=
    fun tick nul => absurd (isDigit_of_mem_sampleUuid nul) (by decide)
  have nothing : ∀ ns blobId, dataWorld.store.getManifest ns blobId = none := fun _ _ => rfl
  have plainNamespaces : ∀ ns owned, dataWorld.store.getNamespace ns = some owned →
      Plain ns.value ∧ FsBlobAnchor.NulFree ns.value := by
    intro ns owned known
    rw [getNamespace_sampleStore known]
    exact ⟨⟨by decide, by decide, by decide⟩, by decide⟩
  have harmless : ∀ request ∈ dataRequests,
      request.Harmless dataWorld.store FsBlobAnchor.Usable := by
    intro request listed
    rw [List.mem_singleton.mp listed]
    trivial
  have same := files_refine_shardMap injective_toString slashFree nulFree dataAnchor_rooted
    replicatingNode nothing plainNamespaces harmless dataWorld_stands (List.replicate 10 0)
  refine ⟨?_, by decide +kernel⟩
  rw [dataStored, dataMapped]
  exact same.2.2.2

end VaultMesh
