import VaultMesh.Files.FileSystem

/-!
# Directories on the way

A path which never goes up passes the places named by its components. If each
of them is a directory the path resolves; if each is a directory or free, and
one is free, resolving fails because something is missing, and `create_dir_all`
makes the directories which are not there.
-/

namespace Files

section Ways

variable {files : FileSystem} {location : Location} {components way : List String}

/-- From the location on, every place on the way is a directory. -/
def Built (files : FileSystem) (location : Location) (way : List String) : Prop :=
  ∀ part, part <+: way → files (location ++ part) = some .dir

/-- From the location on, every place on the way is a directory or free. -/
def Clear (files : FileSystem) (location : Location) (way : List String) : Prop :=
  ∀ part, part <+: way → files (location ++ part) = none ∨ files (location ++ part) = some .dir

/-- Some place on the way is free. -/
def Gap (files : FileSystem) (location : Location) (way : List String) : Prop :=
  ∃ part, part <+: way ∧ files (location ++ part) = none

theorem Clear.built_or_gap (clear : Clear files location way) :
    Built files location way ∨ Gap files location way := by
  by_cases gap : Gap files location way
  · exact Or.inr gap
  · refine Or.inl fun part onTheWay => (clear part onTheWay).resolve_left ?_
    exact fun missing => gap ⟨part, onTheWay, missing⟩

theorem Built.clear (built : Built files location way) : Clear files location way :=
  fun part onTheWay => Or.inr (built part onTheWay)

theorem Built.not_gap (built : Built files location way) : ¬Gap files location way := by
  rintro ⟨part, onTheWay, missing⟩
  cases missing.symm.trans (built part onTheWay)

theorem Built.front {front : List String} (built : Built files location way)
    (isPrefix : front <+: way) : Built files location front :=
  fun part onTheWay => built part (onTheWay.trans isPrefix)

theorem Clear.front {front : List String} (clear : Clear files location way)
    (isPrefix : front <+: way) : Clear files location front :=
  fun part onTheWay => clear part (onTheWay.trans isPrefix)

theorem Clear.tail {name : String} (clear : Clear files location (name :: way)) :
    Clear files (location ++ [name]) way := by
  intro part onTheWay
  rw [List.append_assoc, List.singleton_append]
  exact clear (name :: part) (List.cons_prefix_cons.mpr ⟨rfl, onTheWay⟩)

theorem Built.tail {name : String} (built : Built files location (name :: way)) :
    Built files (location ++ [name]) way := by
  intro part onTheWay
  rw [List.append_assoc, List.singleton_append]
  exact built (name :: part) (List.cons_prefix_cons.mpr ⟨rfl, onTheWay⟩)

theorem Built.here (built : Built files location way) : files location = some .dir := by
  simpa using built [] List.nil_prefix

theorem names_cons_of_stays {component : String} (stays : Stays component) (rest : List String) :
    names (component :: rest) = names rest := by
  simp [names, stays]

theorem names_cons_of_moves {component : String} (moves : ¬Stays component)
    (rest : List String) : names (component :: rest) = component :: names rest := by
  simp [names, moves]

/-- Along directories a path resolves. -/
theorem Built.walk (noUp : ".." ∉ components) (built : Built files location (names components)) :
    Files.walk files location components = .ok (location ++ names components) := by
  induction components generalizing location with
  | nil => simp [Files.walk, names]
  | cons component rest ih =>
      rcases List.ne_and_not_mem_of_not_mem_cons noUp with ⟨notUp, noUpRest⟩
      rw [Files.walk, built.here]
      dsimp only
      split
      · next stays =>
          rw [names_cons_of_stays stays] at built ⊢
          exact ih noUpRest built
      · next moves =>
          rw [names_cons_of_moves moves] at built ⊢
          rw [if_neg (Ne.symm notUp), ih noUpRest built.tail]
          simp

theorem Built.congr {files' : FileSystem} (built : Built files location way)
    (same : ∀ part, part <+: way → files' (location ++ part) = files (location ++ part)) :
    Built files' location way := by
  intro part onTheWay
  rw [same part onTheWay]
  exact built part onTheWay

/-- The last component of a path need not be there for the path to resolve. -/
theorem Built.walk_concat (noUp : ".." ∉ components)
    (built : Built files location (names components)) {name : String}
    (moves : ¬Stays name ∧ name ≠ "..") :
    Files.walk files location (components ++ [name]) =
      .ok (location ++ names components ++ [name]) := by
  have isDir := built _ (List.prefix_refl _)
  simp only [walk_append, built.walk noUp, Except.bind, Files.walk, isDir, if_neg moves.1,
    if_neg moves.2]

/-- Where a directory is missing, nothing behind it is found. -/
theorem Clear.walk_concat (noUp : ".." ∉ components)
    (clear : Clear files location (names components))
    (gap : Gap files location (names components)) (name : String) :
    Files.walk files location (components ++ [name]) = .error .notFound := by
  induction components generalizing location with
  | nil =>
      rcases gap with ⟨part, onTheWay, missing⟩
      rcases List.prefix_nil.mp onTheWay with rfl
      rw [List.append_nil] at missing
      simp [Files.walk, missing]
  | cons component rest ih =>
      rcases List.ne_and_not_mem_of_not_mem_cons noUp with ⟨notUp, noUpRest⟩
      rw [List.cons_append, Files.walk]
      have here : files location = none ∨ files location = some .dir := by
        simpa using clear [] List.nil_prefix
      rcases here with missing | isDir
      · rw [missing]
      · rw [isDir]
        dsimp only
        split
        · next stays =>
            rw [names_cons_of_stays stays] at clear gap
            exact ih noUpRest clear gap
        · next moves =>
            rw [names_cons_of_moves moves] at clear gap
            rw [if_neg (Ne.symm notUp)]
            refine ih noUpRest clear.tail ?_
            rcases gap with ⟨part, onTheWay, missing⟩
            cases part with
            | nil =>
                rw [List.append_nil, isDir] at missing
                cases missing
            | cons first part =>
                rcases List.cons_prefix_cons.mp onTheWay with ⟨rfl, inside⟩
                exact ⟨part, inside, by simpa using missing⟩

/-- The file system with the directories of a way made, those below the location. -/
def madeDirs (files : FileSystem) : Location → List String → FileSystem
  | _, [] => files
  | location, name :: way =>
      madeDirs (Function.update files (location ++ [name]) (some .dir)) (location ++ [name]) way

theorem madeDirs_off_way {other : Location}
    (off : ∀ part, part <+: way → part ≠ [] → other ≠ location ++ part) :
    madeDirs files location way other = files other := by
  induction way generalizing files location with
  | nil => rfl
  | cons name way ih =>
      rw [madeDirs, ih, Function.update_of_ne]
      · exact off [name] (List.cons_prefix_cons.mpr ⟨rfl, List.nil_prefix⟩) (by simp)
      · intro part onTheWay _ same
        apply off (name :: part) (List.cons_prefix_cons.mpr ⟨rfl, onTheWay⟩) (by simp)
        simpa using same

theorem madeDirs_on_way {part : List String} (onTheWay : part <+: way) (below : part ≠ []) :
    madeDirs files location way (location ++ part) = some .dir := by
  induction way generalizing files location part with
  | nil => exact absurd (List.prefix_nil.mp onTheWay) below
  | cons name way ih =>
      cases part with
      | nil => exact absurd rfl below
      | cons first part =>
          rcases List.cons_prefix_cons.mp onTheWay with ⟨rfl, inside⟩
          have shifted : location ++ first :: part = location ++ [first] ++ part := by simp
          rw [madeDirs, shifted]
          by_cases last : part = []
          · subst last
            rw [List.append_nil, madeDirs_off_way, Function.update_self]
            intro other _ nonempty same
            exact nonempty (by simpa using same)
          · exact ih inside last

/-- Where nothing is in the way, `create_dir_all` makes the directories which are missing. -/
theorem Clear.makeDirs (noUp : ".." ∉ components)
    (clear : Clear files location (names components)) :
    Files.makeDirs files location components =
      (.ok (), madeDirs files location (names components)) := by
  induction components generalizing files location with
  | nil => rfl
  | cons component rest ih =>
      rcases List.ne_and_not_mem_of_not_mem_cons noUp with ⟨notUp, noUpRest⟩
      rw [Files.makeDirs]
      split
      · next stays =>
          rw [names_cons_of_stays stays] at clear ⊢
          exact ih noUpRest clear
      · next moves =>
          rw [names_cons_of_moves moves] at clear ⊢
          rw [if_neg (Ne.symm notUp), madeDirs]
          have clearAfter : Clear (Function.update files (location ++ [component]) (some .dir))
              (location ++ [component]) (names rest) := by
            intro part onTheWay
            by_cases here : location ++ [component] ++ part = location ++ [component]
            · right
              rw [here, Function.update_self]
            · rw [Function.update_of_ne here]
              exact clear.tail part onTheWay
          rcases clear [component] (List.cons_prefix_cons.mpr ⟨rfl, List.nil_prefix⟩) with
            missing | isDir
          · rw [missing]
            exact ih noUpRest clearAfter
          · rw [isDir, Function.update_eq_self_iff.mpr isDir.symm]
            exact ih noUpRest clear.tail

end Ways

end Files
