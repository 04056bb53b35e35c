import Mathlib.Logic.Function.Basic
import Mathlib.Data.List.Infix

/-!
# Files and paths

A file system maps locations, the lists of names from the top directory down, to
directories and files. There are no links. Paths are texts: `join` replaces the
base by an absolute path, empty components and `.` name the directory itself,
and `..` names its parent, all of them resolved step by step through directories
which must exist (`walk`).

`removeDirAll` empties the directory before it removes it. The removal itself is
refused for paths which end in `.` or `..`, and by then the contents are gone.
-/

namespace Files

/-- The names from the top directory down. -/
abbrev Location := List String

inductive Entry where
  | dir
  | file (bytes : List UInt8)
  deriving DecidableEq, Repr

abbrev FileSystem := Location → Option Entry

inductive FsError where
  | notFound
  | notADirectory
  | isADirectory
  | alreadyExists
  | notEmpty
  | busy
  | invalidArgument
  | nulByte
  deriving DecidableEq, Repr

def FsError.text : FsError → String
  | .notFound => "No such file or directory (os error 2)"
  | .notADirectory => "Not a directory (os error 20)"
  | .isADirectory => "Is a directory (os error 21)"
  | .alreadyExists => "File exists (os error 17)"
  | .notEmpty => "Directory not empty (os error 39)"
  | .busy => "Device or resource busy (os error 16)"
  | .invalidArgument => "Invalid argument (os error 22)"
  | .nulByte => "file name contained an unexpected NUL byte"

/-! ## Paths -/

/-- A path by its components, empty ones included. -/
structure Path where
  absolute : Bool
  components : List String
  deriving DecidableEq, Repr

namespace Path

def split (text : String) : List String :=
  (text.toList.splitOn '/').map String.ofList

def ofString (text : String) : Path :=
  ⟨decide (text.toList.head? = some '/'), split text⟩

/-- An absolute path replaces the base. -/
def join (base path : Path) : Path :=
  if path.absolute then path else ⟨base.absolute, base.components ++ path.components⟩

def start (cwd : Location) (path : Path) : Location :=
  if path.absolute then [] else cwd

def hasNul (path : Path) : Bool :=
  path.components.any fun component => component.toList.contains (Char.ofNat 0)

end Path

/-- The component names the directory itself. -/
def Stays (component : String) : Prop :=
  component = "" ∨ component = "."

instance (component : String) : Decidable (Stays component) :=
  inferInstanceAs (Decidable (_ ∨ _))

/-- A component which names an entry of the directory. -/
structure Plain (component : String) : Prop where
  slashFree : '/' ∉ component.toList
  moves : ¬Stays component
  descends : component ≠ ".."

/-- Follow the components from a location. -/
def walk (files : FileSystem) : Location → List String → Except FsError Location
  | location, [] => .ok location
  | location, component :: rest =>
      match files location with
      | none => .error .notFound
      | some (.file _) => .error .notADirectory
      | some .dir =>
          if Stays component then walk files location rest
          else if component = ".." then walk files location.dropLast rest
          else walk files (location ++ [component]) rest

def resolve (files : FileSystem) (cwd : Location) (path : Path) : Except FsError Location :=
  if path.hasNul then .error .nulByte else walk files (path.start cwd) path.components

/-! ## Operations -/

def read (files : FileSystem) (cwd : Location) (path : Path) : Except FsError (List UInt8) :=
  match resolve files cwd path with
  | .error error => .error error
  | .ok location =>
      match files location with
      | none => .error .notFound
      | some .dir => .error .isADirectory
      | some (.file bytes) => .ok bytes

/-- Follow the components and make the directories which are missing. -/
def makeDirs (files : FileSystem) : Location → List String → Except FsError Unit × FileSystem
  | _, [] => (.ok (), files)
  | location, component :: rest =>
      if Stays component then makeDirs files location rest
      else if component = ".." then makeDirs files location.dropLast rest
      else
        match files (location ++ [component]) with
        | some .dir => makeDirs files (location ++ [component]) rest
        | some (.file _) =>
            if rest.all (fun component => decide (Stays component)) then
              (.error .alreadyExists, files)
            else
              (.error .notADirectory, files)
        | none =>
            makeDirs (Function.update files (location ++ [component]) (some .dir))
              (location ++ [component]) rest

def createDirAll (files : FileSystem) (cwd : Location) (path : Path) :
    Except FsError Unit × FileSystem :=
  if path.hasNul then (.error .nulByte, files)
  else makeDirs files (path.start cwd) path.components

def write (files : FileSystem) (cwd : Location) (path : Path) (bytes : List UInt8) :
    Except FsError Unit × FileSystem :=
  match resolve files cwd path with
  | .error error => (.error error, files)
  | .ok location =>
      if files location = some .dir then (.error .isADirectory, files)
      else (.ok (), Function.update files location (some (.file bytes)))

/-- Move a file to where no directory is. -/
def rename (files : FileSystem) (cwd : Location) (source target : Path) :
    Except FsError Unit × FileSystem :=
  match resolve files cwd source, resolve files cwd target with
  | .error error, _ => (.error error, files)
  | .ok _, .error error => (.error error, files)
  | .ok old, .ok new =>
      match files old with
      | none => (.error .notFound, files)
      | some .dir => (.error .isADirectory, files)
      | some (.file bytes) =>
          if files new = some .dir then (.error .isADirectory, files)
          else
            (.ok (), Function.update (Function.update files old none) new (some (.file bytes)))

def emptied (files : FileSystem) (location : Location) : FileSystem :=
  fun other => if location <+: other ∧ location ≠ other then none else files other

/-- Remove an empty directory; `.` and `..` may not be the last name. -/
def removeDir (files : FileSystem) (cwd : Location) (path : Path) :
    Except FsError Unit × FileSystem :=
  match resolve files cwd path with
  | .error error => (.error error, files)
  | .ok location =>
      let last := (path.components.filter fun component => decide (component ≠ "")).getLast?
      if last = some "." then (.error .invalidArgument, files)
      else if last = some ".." then (.error .notEmpty, files)
      else if location = [] then (.error .busy, files)
      else (.ok (), Function.update files location none)

def removeDirAll (files : FileSystem) (cwd : Location) (path : Path) :
    Except FsError Unit × FileSystem :=
  match resolve files cwd path with
  | .error error => (.error error, files)
  | .ok location =>
      match files location with
      | none => (.error .notFound, files)
      | some (.file _) => (.error .notADirectory, files)
      | some .dir => removeDir (emptied files location) cwd path

/-! ## Splitting texts -/

theorem Path.split_append_slash (first second : String) :
    split (first ++ "/" ++ second) = split first ++ split second := by
  simp only [split, String.toList_append]
  have slash : "/".toList = ['/'] := rfl
  rw [slash, List.append_assoc, List.singleton_append, List.splitOn_append_cons_self,
    List.map_append]

theorem Path.split_of_slashFree {text : String} (slashFree : '/' ∉ text.toList) :
    split text = [text] := by
  simp [split, List.splitOn_eq_singleton slashFree]

/-- The components hold the letters of the text, the slashes excepted. -/
theorem Path.mem_split_iff {text : String} {letter : Char} :
    (∃ component ∈ split text, letter ∈ component.toList) ↔
      letter ∈ text.toList ∧ letter ≠ '/' := by
  have parts : ∀ letters : List Char,
      (∃ part ∈ letters.splitOn '/', letter ∈ part) ↔ letter ∈ letters ∧ letter ≠ '/' := by
    intro letters
    induction letters with
    | nil => simp
    | cons first letters ih =>
        rw [List.splitOn_cons_eq_if_modifyHead]
        split
        · next slash =>
            have isSlash : first = '/' := by simpa using slash
            subst isSlash
            simp only [List.mem_cons, exists_eq_or_imp, List.not_mem_nil, false_or, ih]
            constructor
            · rintro ⟨inside, other⟩
              exact ⟨Or.inr inside, other⟩
            · rintro ⟨either, other⟩
              exact ⟨either.resolve_left other, other⟩
        · next noSlash =>
            have isOther : first ≠ '/' := by simpa using noSlash
            cases parts : letters.splitOn '/' with
            | nil => exact absurd parts (List.splitOn_ne_nil _ _)
            | cons head rest =>
                rw [parts] at ih
                simp only [List.mem_cons, exists_eq_or_imp, List.modifyHead_cons] at ih ⊢
                by_cases same : letter = first
                · simp [same, isOther]
                · simpa [same] using ih
  simp only [split, List.mem_map, exists_exists_and_eq_and, String.toList_ofList]
  exact parts text.toList

theorem Path.slashFree_of_mem_split {text component : String} (mem : component ∈ split text) :
    '/' ∉ component.toList :=
  fun slash => (mem_split_iff.mp ⟨component, mem, slash⟩).2 rfl

theorem Plain.ofString {text : String} (plain : Plain text) :
    Path.ofString text = ⟨false, [text]⟩ := by
  have notFirst : text.toList.head? ≠ some '/' := by
    intro first
    exact plain.slashFree (List.mem_of_head? first)
  simp [Path.ofString, Path.split_of_slashFree plain.slashFree, notFirst]

/-! ## Walking -/

section Walking

variable {files files' : FileSystem} {location reached : Location} {components : List String}

def names (components : List String) : List String :=
  components.filter fun component => decide ¬Stays component

theorem walk_append (first second : List String) :
    walk files location (first ++ second) =
      (walk files location first).bind fun middle => walk files middle second := by
  induction first generalizing location with
  | nil => rfl
  | cons component rest ih =>
      simp only [List.cons_append, walk]
      split
      · rfl
      · rfl
      · split
        · exact ih
        · split
          · exact ih
          · exact ih

/-- A path which resolves keeps doing so as long as its directories stay. -/
theorem walk_of_dirs_kept (kept : ∀ other, files other = some .dir → files' other = some .dir)
    (walked : walk files location components = .ok reached) :
    walk files' location components = .ok reached := by
  induction components generalizing location with
  | nil => exact walked
  | cons component rest ih =>
      rw [walk] at walked ⊢
      split at walked
      · cases walked
      · cases walked
      · next isDir =>
          rw [kept location isDir]
          dsimp only
          split at walked
          · next stays =>
              rw [if_pos stays]
              exact ih walked
          · next moves =>
              rw [if_neg moves]
              split at walked
              · next up =>
                  rw [if_pos up]
                  exact ih walked
              · next down =>
                  rw [if_neg down]
                  exact ih walked

theorem walk_concat_name {name : String} (plain : ¬Stays name ∧ name ≠ "..")
    (walked : walk files location (components ++ [name]) = .ok reached) :
    ∃ parent, walk files location components = .ok parent ∧ reached = parent ++ [name] := by
  rw [walk_append] at walked
  cases walkedFirst : walk files location components with
  | error error =>
      rw [walkedFirst] at walked
      cases walked
  | ok parent =>
      rw [walkedFirst] at walked
      refine ⟨parent, rfl, ?_⟩
      simp only [Except.bind, walk, if_neg plain.1, if_neg plain.2] at walked
      split at walked
      · cases walked
      · cases walked
      · exact (Except.ok.inj walked).symm

/-- A walk goes up some way and down by names among its components. -/
theorem walk_names (walked : walk files location components = .ok reached) :
    ∃ kept added, kept <+: location ∧ reached = kept ++ added ∧
      ∀ name ∈ added, name ∈ components ∧ ¬Stays name ∧ name ≠ ".." := by
  induction components generalizing location with
  | nil => exact ⟨location, [], List.prefix_refl _, by simpa using (Except.ok.inj walked).symm,
      by simp⟩
  | cons component rest ih =>
      rw [walk] at walked
      split at walked
      · cases walked
      · cases walked
      · split at walked
        · rcases ih walked with ⟨kept, added, isPrefix, split, named⟩
          exact ⟨kept, added, isPrefix, split, fun name mem =>
            ⟨List.mem_cons_of_mem _ (named name mem).1, (named name mem).2⟩⟩
        · next moves =>
            split at walked
            · rcases ih walked with ⟨kept, added, isPrefix, split, named⟩
              exact ⟨kept, added, isPrefix.trans (List.dropLast_prefix _), split, fun name mem =>
                ⟨List.mem_cons_of_mem _ (named name mem).1, (named name mem).2⟩⟩
            · next down =>
                rcases ih walked with ⟨kept, added, isPrefix, split, named⟩
                rcases List.prefix_concat_iff.mp isPrefix with whole | part
                · refine ⟨location, component :: added, List.prefix_refl _, ?_, ?_⟩
                  · simp [split, whole]
                  · intro name mem
                    rcases List.mem_cons.mp mem with rfl | later
                    · exact ⟨List.mem_cons_self, moves, down⟩
                    · exact ⟨List.mem_cons_of_mem _ (named name later).1, (named name later).2⟩
                · exact ⟨kept, added, part, split, fun name mem =>
                    ⟨List.mem_cons_of_mem _ (named name mem).1, (named name mem).2⟩⟩

/-- The file system in which every path leads somewhere. -/
def onlyDirs : FileSystem :=
  fun _ => some .dir

theorem walk_onlyDirs (location : Location) (components : List String) :
    ∃ reached, walk onlyDirs location components = .ok reached := by
  induction components generalizing location with
  | nil => exact ⟨location, rfl⟩
  | cons component rest ih =>
      simp only [walk, onlyDirs]
      split
      · exact ih location
      · split
        · exact ih location.dropLast
        · exact ih (location ++ [component])

theorem walk_eq_append (noUp : ".." ∉ components)
    (walked : walk files location components = .ok reached) :
    reached = location ++ names components := by
  induction components generalizing location with
  | nil =>
      rw [names, List.filter_nil, List.append_nil]
      exact (Except.ok.inj walked).symm
  | cons component rest ih =>
      rcases List.ne_and_not_mem_of_not_mem_cons noUp with ⟨notUp, noUpRest⟩
      rw [walk] at walked
      split at walked
      · cases walked
      · cases walked
      · split at walked
        · next stays =>
            rw [ih noUpRest walked]
            simp [names, stays]
        · next moves =>
            rw [if_neg (Ne.symm notUp)] at walked
            rw [ih noUpRest walked]
            simp [names, moves]

/-- Without `..`, only the locations on the way matter. -/
theorem walk_congr (noUp : ".." ∉ components)
    (same : ∀ part, part <+: names components →
      files' (location ++ part) = files (location ++ part)) :
    walk files' location components = walk files location components := by
  induction components generalizing location with
  | nil => rfl
  | cons component rest ih =>
      rcases List.ne_and_not_mem_of_not_mem_cons noUp with ⟨notUp, noUpRest⟩
      have here : files' location = files location := by
        simpa using same [] List.nil_prefix
      rw [walk, walk, here]
      split
      · rfl
      · rfl
      · split
        · next stays =>
            apply ih noUpRest
            intro part inside
            apply same part
            simpa [names, stays] using inside
        · next moves =>
            rw [if_neg (Ne.symm notUp), if_neg (Ne.symm notUp)]
            apply ih noUpRest
            intro part inside
            rw [List.append_assoc, List.singleton_append]
            apply same (component :: part)
            simpa [names, moves] using inside

/-- Resolving depends on which locations are directories only. -/
theorem walk_eq_ok_iff (same : ∀ other, files' other = some .dir ↔ files other = some .dir) :
    walk files' location components = .ok reached ↔ walk files location components = .ok reached :=
  ⟨walk_of_dirs_kept fun other => (same other).mp, walk_of_dirs_kept fun other => (same other).mpr⟩

end Walking

/-! ## What the operations keep -/

section Keeping

variable {files files' : FileSystem} {cwd location other reached : Location} {path : Path}

theorem makeDirs_keeps {entry : Entry} (found : files other = some entry)
    (components : List String) : (makeDirs files location components).2 other = some entry := by
  induction components generalizing files location with
  | nil => exact found
  | cons component rest ih =>
      rw [makeDirs]
      split
      · exact ih found
      · split
        · exact ih found
        · split
          · exact ih found
          · split <;> exact found
          · next missing =>
              apply ih
              rw [Function.update_of_ne]
              · exact found
              · rintro rfl
                rw [missing] at found
                cases found

theorem createDirAll_keeps {entry : Entry} (found : files other = some entry) (cwd : Location)
    (path : Path) : (createDirAll files cwd path).2 other = some entry := by
  rw [createDirAll]
  split
  · exact found
  · exact makeDirs_keeps found _

theorem resolve_eq_ok_iff (same : ∀ other, files' other = some .dir ↔ files other = some .dir) :
    resolve files' cwd path = .ok reached ↔ resolve files cwd path = .ok reached := by
  unfold resolve
  split
  · exact Iff.rfl
  · exact walk_eq_ok_iff same

theorem resolve_of_dirs_kept (kept : ∀ other, files other = some .dir → files' other = some .dir)
    (resolved : resolve files cwd path = .ok reached) : resolve files' cwd path = .ok reached := by
  unfold resolve at resolved ⊢
  split at resolved
  · cases resolved
  · next clean =>
      rw [if_neg clean]
      exact walk_of_dirs_kept kept resolved

theorem resolve_eq_append (noUp : ".." ∉ path.components)
    (resolved : resolve files cwd path = .ok reached) :
    reached = path.start cwd ++ names path.components := by
  rw [resolve] at resolved
  split at resolved
  · cases resolved
  · exact walk_eq_append noUp resolved

/-- Without `..`, reading depends on what lies on the way. -/
theorem read_congr (noUp : ".." ∉ path.components)
    (same : ∀ part, part <+: names path.components →
      files' (path.start cwd ++ part) = files (path.start cwd ++ part)) :
    read files' cwd path = read files cwd path := by
  have sameResolve : resolve files' cwd path = resolve files cwd path := by
    rw [resolve, resolve, walk_congr noUp same]
  rw [read, read, sameResolve]
  cases resolved : resolve files cwd path with
  | error error => rfl
  | ok location =>
      dsimp only
      rw [resolve_eq_append noUp resolved, same _ (List.prefix_refl _)]

/-- A new file which is moved at once ends up where the target path leads, if it leads anywhere
but to a directory. -/
theorem rename_of_written {source : Path} {old : Location}
    (resolved : resolve files cwd source = .ok old) (noDir : files old ≠ some .dir)
    (target : Path) (bytes : List UInt8) :
    (rename (Function.update files old (some (.file bytes))) cwd source target).2 =
      match resolve files cwd target with
      | .error _ => Function.update files old (some (.file bytes))
      | .ok new =>
          if files new = some .dir then Function.update files old (some (.file bytes))
          else Function.update (Function.update files old none) new (some (.file bytes)) := by
  have sameDirs : ∀ other,
      Function.update files old (some (.file bytes)) other = some .dir ↔
        files other = some .dir := by
    intro other
    by_cases isOld : other = old
    · subst isOld
      simp [noDir]
    · rw [Function.update_of_ne isOld]
  rw [rename, (resolve_eq_ok_iff sameDirs).mpr resolved]
  cases reached : resolve files cwd target with
  | error error =>
      -- Only whether the target path resolves matters, not with which error it fails.
      cases again : resolve (Function.update files old (some (.file bytes))) cwd target with
      | error error => rfl
      | ok new =>
          rw [(resolve_eq_ok_iff sameDirs).mp again] at reached
          cases reached
  | ok new =>
      rw [(resolve_eq_ok_iff sameDirs).mpr reached]
      simp only [Function.update_self, sameDirs]
      split
      · rfl
      · rw [Function.update_idem]

theorem removeDir_outside (resolved : resolve files cwd path = .ok location)
    (outside : ¬location <+: other) : (removeDir files cwd path).2 other = files other := by
  rw [removeDir, resolved]
  dsimp only
  split
  · rfl
  · split
    · rfl
    · split
      · rfl
      · apply Function.update_of_ne
        rintro rfl
        exact outside (List.prefix_refl _)

/-- Only what lies below the location which the path names is removed. -/
theorem removeDirAll_outside
    (outside : ∀ location, resolve files cwd path = .ok location → ¬location <+: other) :
    (removeDirAll files cwd path).2 other = files other := by
  rw [removeDirAll]
  split
  · rfl
  · next location resolved =>
      have apart := outside location resolved
      have kept : emptied files location other = files other := by
        apply if_neg
        rintro ⟨below, -⟩
        exact apart below
      split
      · rfl
      · rfl
      · cases again : resolve (emptied files location) cwd path with
        | error error =>
            rw [removeDir, again]
            exact kept
        | ok reached =>
            -- What resolves when the directory is empty did so before.
            have before : resolve files cwd path = .ok reached := by
              apply resolve_of_dirs_kept ?_ again
              intro place isDir
              rw [emptied] at isDir
              split at isDir
              · cases isDir
              · exact isDir
            rw [removeDir_outside again (outside reached before), kept]

end Keeping

end Files
