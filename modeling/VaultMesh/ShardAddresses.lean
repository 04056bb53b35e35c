import VaultMesh.Coding.UrlText
import VaultMesh.FsBlobAnchor
import VaultMesh.PeerRequests

/-!
# The addresses of shards

A peer names a shard by texts, and the anchor puts these texts into a path. If
both ids are plain names, the path leads to `root/namespace/blob/index`, and
different shards have different files. All other ids lead elsewhere, except that
nothing is found under an id with a NUL byte.
-/

namespace VaultMesh

open Files

/-- The shards which a peer can name: by a key in a frame, or by segments of a request path. -/
inductive PeerAddress : ShardRef → Prop where
  | key {key : String} {ref : ShardRef} (parsed : Wire.parseKey key = some ref) : PeerAddress ref
  | segments {nsSegment blobSegment : List UInt8} {ns blob : String} (index : UInt16)
      (nsDecoded : Coding.Urls.decodeSegment nsSegment = some ns)
      (blobDecoded : Coding.Urls.decodeSegment blobSegment = some blob) :
      PeerAddress (shardRef ns blob index)

namespace FsBlobAnchor

/-- Wherever the path of the shard leads, this is the place of the shard below the root. -/
def Placed (self : FsBlobAnchor) (ref : ShardRef) : Prop :=
  ∀ files base location, resolve files self.cwd self.root = .ok base →
    resolve files self.cwd (self.shardPath ref) = .ok location →
    location = base ++ [ref.ns.value, ref.blobId.value, shardName ref.index]

/-- The paths of the shards never lead to the same place. -/
def Apart (self : FsBlobAnchor) (ref other : ShardRef) : Prop :=
  ∀ files location, resolve files self.cwd (self.shardPath ref) = .ok location →
    resolve files self.cwd (self.shardPath other) ≠ .ok location

def NulFree (text : String) : Prop :=
  Char.ofNat 0 ∉ text.toList

instance (text : String) : Decidable (NulFree text) :=
  inferInstanceAs (Decidable (_ ∉ _))

/-- Both ids are plain names, or no path with them leads anywhere. -/
def Addressed (ref : ShardRef) : Prop :=
  Plain ref.ns.value ∧ Plain ref.blobId.value ∨ ¬NulFree ref.ns.value ∨ ¬NulFree ref.blobId.value

/-! ## Names of shards -/

theorem shardName_injective : Function.Injective shardName := by
  intro index other same
  have letters := congrArg String.toList same
  simp only [shardName, String.toList_append] at letters
  have digits := congrArg (fun digits => Nat.ofDigitChars 10 digits 0)
    (List.append_cancel_right letters)
  simpa [paddedIndex, String.toList_append, Nat.ofDigitChars_append, UInt16.toNat_inj] using digits

theorem nulFree_shardName (index : UInt16) : NulFree (shardName index) := by
  intro present
  simp only [shardName, String.toList_append, List.mem_append] at present
  rcases present with digit | ending
  · exact absurd (isDigit_of_mem_paddedIndex digit) (by decide)
  · exact absurd ending (by decide)

theorem hasNul_split {text : String} :
    (Path.split text).any (fun component => component.toList.contains (Char.ofNat 0)) = true ↔
      ¬NulFree text := by
  have nul : Char.ofNat 0 ≠ '/' := by decide
  simp only [List.any_eq_true, List.contains_iff_mem, NulFree, not_not, Path.mem_split_iff, nul,
    ne_eq, not_false_iff, and_true]

variable {self : FsBlobAnchor} {ref other : ShardRef}

theorem hasNul_shardPath (clean : self.root.hasNul = false) (ref : ShardRef) :
    (self.shardPath ref).hasNul = true ↔ ¬NulFree ref.ns.value ∨ ¬NulFree ref.blobId.value := by
  have name : (shardName ref.index).toList.contains (Char.ofNat 0) = false := by
    simpa [NulFree] using nulFree_shardName ref.index
  have key : (Path.split ref.objectKey).any
      (fun component => component.toList.contains (Char.ofNat 0)) = true ↔
      ¬NulFree ref.ns.value ∨ ¬NulFree ref.blobId.value := by
    rw [split_objectKey, List.any_append, List.any_append, Bool.or_eq_true, Bool.or_eq_true,
      hasNul_split, hasNul_split]
    simp only [List.any_cons, List.any_nil, name, Bool.or_false, Bool.false_eq_true, or_false]
  rw [shardPath, Path.join]
  split
  · exact key
  · simp only [Path.hasNul] at clean ⊢
    rw [List.any_append, clean, Bool.false_or]
    exact key

/-! ## Where the paths lead -/

theorem resolve_eq_ok_walk {files : FileSystem} {cwd location : Location} {path : Path} :
    resolve files cwd path = .ok location ↔
      path.hasNul = false ∧ walk files (path.start cwd) path.components = .ok location := by
  cases nul : path.hasNul <;> simp [resolve, nul]

theorem nulFree_of_resolve (clean : self.root.hasNul = false) {files : FileSystem}
    {location : Location}
    (resolved : resolve files self.cwd (self.shardPath ref) = .ok location) :
    NulFree ref.ns.value ∧ NulFree ref.blobId.value := by
  have noNul := (resolve_eq_ok_walk.mp resolved).1
  have nul := hasNul_shardPath clean ref
  rw [noNul] at nul
  simpa only [Bool.false_eq_true, false_iff, not_or, not_not] using nul

/-- The path of a shard with plain ids leads on from where the root is. -/
theorem resolve_of_plain (clean : self.root.hasNul = false) (nsPlain : Plain ref.ns.value)
    (blobPlain : Plain ref.blobId.value) {files : FileSystem} {location : Location}
    (resolved : resolve files self.cwd (self.shardPath ref) = .ok location) :
    ∃ base, resolve files self.cwd self.root = .ok base ∧
      location = base ++ [ref.ns.value, ref.blobId.value, shardName ref.index] := by
  have walked := (resolve_eq_ok_walk.mp resolved).2
  rw [shardPath_of_plain nsPlain blobPlain] at walked
  rcases walk_concat_name (shardName_moves ref.index) walked with ⟨blobDir, toBlob, rfl⟩
  rcases walk_concat_name ⟨blobPlain.moves, blobPlain.descends⟩ toBlob with ⟨nsDir, toNs, rfl⟩
  rcases walk_concat_name ⟨nsPlain.moves, nsPlain.descends⟩ toNs with ⟨base, toRoot, rfl⟩
  exact ⟨base, resolve_eq_ok_walk.mpr ⟨clean, toRoot⟩, by simp⟩

theorem placed_of_plain (clean : self.root.hasNul = false) (nsPlain : Plain ref.ns.value)
    (blobPlain : Plain ref.blobId.value) : self.Placed ref := by
  intro files base location rootResolved resolved
  rcases resolve_of_plain clean nsPlain blobPlain resolved with ⟨base', rootResolved', place⟩
  rw [rootResolved] at rootResolved'
  rw [place, Except.ok.inj rootResolved']

/-- Among directories only, every path without a NUL byte leads down from some directory at or
above the root, by names which are components of the key. -/
theorem resolve_onlyDirs (clean : self.root.hasNul = false) (nsFree : NulFree ref.ns.value)
    (blobFree : NulFree ref.blobId.value) :
    ∃ base kept added, resolve onlyDirs self.cwd self.root = .ok base ∧
      kept.length ≤ base.length ∧
      resolve onlyDirs self.cwd (self.shardPath ref) = .ok (kept ++ added) ∧
      ∀ name ∈ added, name ∈ Path.split ref.objectKey ∧ ¬Stays name ∧ name ≠ ".." := by
  rcases walk_onlyDirs (self.root.start self.cwd) self.root.components with ⟨base, toRoot⟩
  have noNul : (self.shardPath ref).hasNul = false := by
    rw [← Bool.not_eq_true, hasNul_shardPath clean]
    simp [nsFree, blobFree]
  by_cases absolute : (Path.ofString ref.objectKey).absolute = true
  · rcases walk_onlyDirs [] (Path.split ref.objectKey) with ⟨location, walked⟩
    rcases walk_names walked with ⟨kept, added, isPrefix, rfl, named⟩
    refine ⟨base, kept, added, resolve_eq_ok_walk.mpr ⟨clean, toRoot⟩, ?_, ?_, named⟩
    · simp [List.prefix_nil.mp isPrefix]
    · apply resolve_eq_ok_walk.mpr
      refine ⟨noNul, ?_⟩
      rw [shardPath, Path.join, if_pos absolute, Path.start, if_pos absolute]
      exact walked
  · rcases walk_onlyDirs base (Path.split ref.objectKey) with ⟨location, walked⟩
    rcases walk_names walked with ⟨kept, added, isPrefix, rfl, named⟩
    refine ⟨base, kept, added, resolve_eq_ok_walk.mpr ⟨clean, toRoot⟩, isPrefix.length_le, ?_,
      named⟩
    apply resolve_eq_ok_walk.mpr
    refine ⟨noNul, ?_⟩
    have joined : self.shardPath ref =
        ⟨self.root.absolute, self.root.components ++ Path.split ref.objectKey⟩ := by
      rw [shardPath, Path.join, if_neg absolute]
      rfl
    rw [joined]
    change walk onlyDirs (self.root.start self.cwd) _ = _
    rw [walk_append, toRoot]
    exact walked

theorem addressed_of_placed (clean : self.root.hasNul = false) (placed : self.Placed ref) :
    Addressed ref := by
  by_cases nsFree : NulFree ref.ns.value
  · by_cases blobFree : NulFree ref.blobId.value
    · rcases resolve_onlyDirs clean nsFree blobFree with
        ⟨base, kept, added, rootResolved, short, resolved, named⟩
      have place := placed onlyDirs base _ rootResolved resolved
      have below : [ref.ns.value, ref.blobId.value, shardName ref.index] <:+ added := by
        rcases List.append_eq_append_iff.mp place with ⟨more, -, split⟩ | ⟨more, split, rest⟩
        · exact ⟨more, split.symm⟩
        · rw [split, List.length_append] at short
          have nothing : more = [] := List.eq_nil_of_length_eq_zero (by omega)
          rw [rest, nothing]
          exact List.suffix_refl _
      have plain : ∀ id ∈ [ref.ns.value, ref.blobId.value, shardName ref.index], Plain id := by
        intro id listed
        rcases named id (below.subset listed) with ⟨component, moves, descends⟩
        exact ⟨Path.slashFree_of_mem_split component, moves, descends⟩
      exact Or.inl ⟨plain _ (by simp), plain _ (by simp)⟩
    · exact Or.inr (Or.inr blobFree)
  · exact Or.inr (Or.inl nsFree)

theorem placed_of_addressed (clean : self.root.hasNul = false) (addressed : Addressed ref) :
    self.Placed ref := by
  rcases addressed with ⟨nsPlain, blobPlain⟩ | nul
  · exact placed_of_plain clean nsPlain blobPlain
  · intro files base location _ resolved
    have free := nulFree_of_resolve clean resolved
    simp [free.1, free.2] at nul

/--
The paths of two shards lead to their own places below the root, and never to
the same place, exactly if the ids of both are plain names or contain a NUL byte.
-/
theorem shardPaths_placed_iff (clean : self.root.hasNul = false) (ref other : ShardRef) :
    (self.Placed ref ∧ self.Placed other ∧ (ref ≠ other → self.Apart ref other)) ↔
      Addressed ref ∧ Addressed other := by
  constructor
  · rintro ⟨placed, placed', _⟩
    exact ⟨addressed_of_placed clean placed, addressed_of_placed clean placed'⟩
  · rintro ⟨addressed, addressed'⟩
    refine ⟨placed_of_addressed clean addressed, placed_of_addressed clean addressed', ?_⟩
    intro different files location resolved resolved'
    apply different
    have free := nulFree_of_resolve clean resolved
    rcases addressed with ⟨nsPlain, blobPlain⟩ | nul
    · rcases resolve_of_plain clean nsPlain blobPlain resolved with ⟨base, rootResolved, place⟩
      have place' := placed_of_addressed clean addressed' files base location rootResolved resolved'
      rw [place] at place'
      have same := List.append_cancel_left place'
      simp only [List.cons.injEq, and_true] at same
      rcases ref with ⟨⟨ns⟩, ⟨blob⟩, index⟩
      rcases other with ⟨⟨ns'⟩, ⟨blob'⟩, index'⟩
      simp only at same
      rw [same.1, same.2.1, shardName_injective same.2.2]
    · simp [free.1, free.2] at nul

def dataAnchor : FsBlobAnchor :=
  ⟨[], Path.ofString "/data"⟩

theorem shardPaths_placed_iff_plain :
    dataAnchor.Placed ⟨⟨"ns-1"⟩, ⟨"blob-5"⟩, 0⟩ ∧
      dataAnchor.Apart ⟨⟨"ns-1"⟩, ⟨"blob-5"⟩, 0⟩ ⟨⟨"ns-1"⟩, ⟨"blob-5"⟩, 1⟩ := by
  have ns : Plain "ns-1" := ⟨by decide, by decide, by decide⟩
  have blob : Plain "blob-5" := ⟨by decide, by decide, by decide⟩
  have plain (index : UInt16) : Addressed ⟨⟨"ns-1"⟩, ⟨"blob-5"⟩, index⟩ := Or.inl ⟨ns, blob⟩
  have clean : dataAnchor.root.hasNul = false := by decide
  have placed := (shardPaths_placed_iff clean _ _).mpr ⟨plain 0, plain 1⟩
  exact ⟨placed.1, placed.2.2 (by decide)⟩

/-- The frame key `../x/0` leads out of the root, and `./a/0` and `a/./0` to the same file. -/
theorem shardPaths_escape_and_alias :
    ¬(∀ self : FsBlobAnchor, self.root.hasNul = false → ∀ ref, PeerAddress ref →
      self.Placed ref) ∧
    ¬(∀ self : FsBlobAnchor, self.root.hasNul = false → ∀ ref other, PeerAddress ref →
      PeerAddress other → ref ≠ other → self.Apart ref other) := by
  constructor
  · intro placed
    have above := placed dataAnchor (by decide) ⟨⟨".."⟩, ⟨"x"⟩, 0⟩
      (.key (by decide : Wire.parseKey "../x/0" = some _)) onlyDirs ["data"] ["x", "00000.shard"]
      (by decide) (by decide)
    exact absurd above (by decide)
  · intro apart
    exact apart dataAnchor (by decide) ⟨⟨"."⟩, ⟨"a"⟩, 0⟩ ⟨⟨"a"⟩, ⟨"."⟩, 0⟩
      (.key (by decide : Wire.parseKey "./a/0" = some _))
      (.key (by decide : Wire.parseKey "a/./0" = some _)) (by decide) onlyDirs
      ["data", "a", "00000.shard"] (by decide) (by decide)

end FsBlobAnchor

end VaultMesh
