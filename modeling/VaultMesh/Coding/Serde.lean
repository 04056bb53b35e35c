import VaultMesh.Coding.Json

/-!
# Derived serialization

`Serde` pairs the JSON value of a typed value with the reader which the derived
deserializer is, and carries the law that the one undoes the other.

A structure is written as an object and read from an object, where unknown names
are skipped and a name given twice is an error, or from an array of its fields in
order. A missing field is an error unless it is optional. An enumeration is read
from the name of a variant or from an object whose only name is the variant's.
-/

namespace Coding

/-- Types which are written as JSON and read back. -/
class Serde (α : Type) where
  toJson : α → Json
  fromJson : Json → Option α
  fromJson_toJson : ∀ value, fromJson (toJson value) = some value

/-- Types none of whose values is written as `null`. -/
class Serde.Solid (α : Type) [Serde α] : Prop where
  toJson_ne_null : ∀ value : α, Serde.toJson value ≠ Json.null

namespace Serde

attribute [simp] fromJson_toJson

/-! ## Basic types -/

instance : Serde String where
  toJson := Json.string
  fromJson
    | .string text => some text
    | _ => none
  fromJson_toJson _ := rfl

instance : Solid String where
  toJson_ne_null _ := nofun

/-- The number, if it fits. -/
def readBelow (bound : ℕ) : Json → Option ℕ
  | .number value => if value < bound then some value else none
  | _ => none

theorem readBelow_of_lt {value bound : ℕ} (small : value < bound) :
    readBelow bound (.number value) = some value := by
  simp [readBelow, small]

instance : Serde UInt8 where
  toJson value := .number value.toNat
  fromJson json := (readBelow (2 ^ 8) json).map UInt8.ofNat
  fromJson_toJson value := by simp [readBelow_of_lt value.toNat_lt]

instance : Serde UInt16 where
  toJson value := .number value.toNat
  fromJson json := (readBelow (2 ^ 16) json).map UInt16.ofNat
  fromJson_toJson value := by simp [readBelow_of_lt value.toNat_lt]

instance : Serde UInt32 where
  toJson value := .number value.toNat
  fromJson json := (readBelow (2 ^ 32) json).map UInt32.ofNat
  fromJson_toJson value := by simp [readBelow_of_lt value.toNat_lt]

instance : Serde UInt64 where
  toJson value := .number value.toNat
  fromJson json := (readBelow (2 ^ 64) json).map UInt64.ofNat
  fromJson_toJson value := by simp [readBelow_of_lt value.toNat_lt]

instance {α : Type} [Serde α] : Serde (List α) where
  toJson items := .array (items.map toJson)
  fromJson
    | .array items => items.mapM fromJson
    | _ => none
  fromJson_toJson items := by
    induction items with
    | nil => rfl
    | cons item items ih => simp_all [List.mapM_cons]

instance {α : Type} [Serde α] : Solid (List α) where
  toJson_ne_null _ := nofun

instance {α : Type} [Serde α] [Solid α] : Serde (Option α) where
  toJson
    | none => .null
    | some value => toJson value
  fromJson
    | .null => some none
    | json => (fromJson json).map some
  fromJson_toJson value := by
    cases value with
    | none => rfl
    | some value =>
        have solid := Solid.toJson_ne_null value
        have back := fromJson_toJson value
        cases json : toJson value with
        | null => exact absurd json solid
        | _ => simp_all

/-- A type which is written as the value it wraps. -/
@[reducible]
def newtype {α β : Type} [Serde α] (wrap : α → β) (unwrap : β → α)
    (wrap_unwrap : ∀ value, wrap (unwrap value) = value) : Serde β where
  toJson value := toJson (unwrap value)
  fromJson json := (fromJson json).map wrap
  fromJson_toJson value := by simp [wrap_unwrap]

/-! ## Structures -/

/-- A structure with the values of its fields. -/
def record (names : List String) (values : List Json) : Json :=
  .object (names.zip values)

/-- The value given for a name; two are an error. -/
def entry (fields : List (String × Json)) (name : String) : Option (Option Json) :=
  match fields.filter fun field => field.1 = name with
  | [] => some none
  | [field] => some (some field.2)
  | _ => none

/-- What is given for each field of a structure. -/
def entries (names : List String) : Json → Option (List (Option Json))
  | .object fields => names.mapM (entry fields)
  | .array items =>
      if items.length ≤ names.length then
        some (items.map some ++ List.replicate (names.length - items.length) none)
      else
        none
  | _ => none

def required {α : Type} [Serde α] (given : Option Json) : Option α :=
  given.bind fromJson

def defaulted {α : Type} [Serde α] [Solid α] : Option Json → Option (Option α)
  | none => some none
  | some json => fromJson json

@[simp]
theorem required_toJson {α : Type} [Serde α] (value : α) :
    required (some (toJson value)) = some value :=
  fromJson_toJson value

@[simp]
theorem defaulted_toJson {α : Type} [Serde α] [Solid α] (value : Option α) :
    defaulted (some (toJson value)) = some value :=
  fromJson_toJson value

theorem entry_of_mem {fields : List (String × Json)} (distinct : (fields.map Prod.fst).Nodup)
    {field : String × Json} (present : field ∈ fields) :
    entry fields field.1 = some (some field.2) := by
  have alone : fields.filter (fun other => other.1 = field.1) = [field] := by
    induction fields with
    | nil => cases present
    | cons first fields ih =>
        rw [List.map_cons, List.nodup_cons] at distinct
        rcases List.mem_cons.mp present with rfl | later
        · simp only [decide_true, List.filter_cons_of_pos, List.cons.injEq, true_and,
            List.filter_eq_nil_iff, decide_eq_true_eq]
          intro other present same
          exact distinct.1 (same ▸ List.mem_map_of_mem present)
        · have other : first.1 ≠ field.1 := by
            intro same
            exact distinct.1 (same ▸ List.mem_map_of_mem later)
          simp [other, ih distinct.2 later]
  simp [entry, alone]

/-- A structure is read back field by field. -/
theorem entries_record {names : List String} {values : List Json} (distinct : names.Nodup)
    (whole : names.length = values.length) :
    entries names (record names values) = some (values.map some) := by
  have firsts : (names.zip values).map Prod.fst = names := List.map_fst_zip (by omega)
  have seconds : (names.zip values).map Prod.snd = values := List.map_snd_zip (by omega)
  have each : ∀ fields : List (String × Json), fields ⊆ names.zip values →
      (fields.map Prod.fst).mapM (entry (names.zip values)) =
        some ((fields.map Prod.snd).map some) := by
    intro fields within
    induction fields with
    | nil => rfl
    | cons field fields ih =>
        have found := entry_of_mem (firsts.symm ▸ distinct) (within List.mem_cons_self)
        have later := ih fun other present => within (List.mem_cons_of_mem _ present)
        simp [List.mapM_cons, found, later]
  have all := each (names.zip values) fun _ present => present
  rw [firsts, seconds] at all
  exact all

theorem entry_of_not_mem {fields : List (String × Json)} {name : String}
    (missing : name ∉ fields.map Prod.fst) : entry fields name = some none := by
  have empty : fields.filter (fun field => field.1 = name) = [] := by
    apply List.filter_eq_nil_iff.mpr
    intro field present same
    exact missing (of_decide_eq_true same ▸ List.mem_map_of_mem present)
  simp [entry, empty]

theorem getElem?_of_mapM {α β : Type} {read : α → Option β} {items : List α} {found : List β}
    (reads : items.mapM read = some found) (index : ℕ) :
    items[index]?.bind read = found[index]? := by
  induction items generalizing found index with
  | nil =>
      rcases Option.some.inj reads with rfl
      simp
  | cons item items ih =>
      simp only [List.mapM_cons, Option.bind_eq_bind, Option.bind_eq_some_iff] at reads
      rcases reads with ⟨first, readFirst, rest, readRest, built⟩
      rcases Option.some.inj built with rfl
      cases index with
      | zero => simpa using readFirst
      | succ index => simpa using ih readRest index

/-- An array gives its items to the fields in order. -/
theorem getElem?_of_entries_array {names : List String} {items : List Json}
    {given : List (Option Json)} (found : entries names (.array items) = some given) {index : ℕ}
    (inside : index < names.length) : given[index]? = some items[index]? := by
  simp only [entries] at found
  split at found
  · next short =>
      rcases Option.some.inj found with rfl
      by_cases early : index < items.length
      · simp [List.getElem?_append_left, early]
      · have padded : index - items.length < names.length - items.length := by omega
        rw [List.getElem?_append_right (by simpa using early)]
        simp [padded, Nat.le_of_not_lt early]
  · cases found

/-- A structure is not read if one of its fields is not. -/
theorem bind_entries_eq_none {α : Type} {names : List String}
    {build : List (Option Json) → Option α} {json : Json} (index : ℕ) (poor : Option Json → Prop)
    (needs : ∀ given entry, given[index]? = some entry → poor entry → build given = none)
    (given_poor : ∀ given, entries names json = some given →
      ∃ entry, given[index]? = some entry ∧ poor entry) :
    (entries names json).bind build = none := by
  cases found : entries names json with
  | none => rfl
  | some given =>
      rcases given_poor given found with ⟨entry, position, isPoor⟩
      exact needs given entry position isPoor

/-- Nothing, or a text. -/
def IsText (entry : Option Json) : Prop :=
  entry = none ∨ ∃ text, entry = some (.string text)

theorem entries_lacking {names : List String} {fields : List (String × Json)} {name : String}
    {index : ℕ} (named : names[index]? = some name) (missing : name ∉ fields.map Prod.fst)
    {given : List (Option Json)} (found : entries names (.object fields) = some given) :
    given[index]? = some none := by
  have position := getElem?_of_mapM found index
  rw [named, Option.bind_some, entry_of_not_mem missing] at position
  exact position.symm

theorem entries_texts {names : List String} {texts : List String} {index : ℕ}
    (inside : index < names.length) {given : List (Option Json)}
    (found : entries names (.array (texts.map .string)) = some given) :
    ∃ entry, given[index]? = some entry ∧ IsText entry := by
  refine ⟨_, getElem?_of_entries_array found inside, ?_⟩
  rw [List.getElem?_map]
  cases texts[index]? with
  | none => exact Or.inl rfl
  | some text => exact Or.inr ⟨text, rfl⟩

/-- A type which is written as an object with named fields. -/
@[reducible]
def struct {α : Type} (names : List String) (values : α → List Json)
    (build : List (Option Json) → Option α) (distinct : names.Nodup)
    (whole : ∀ value, names.length = (values value).length)
    (build_values : ∀ value, build ((values value).map some) = some value) : Serde α where
  toJson value := record names (values value)
  fromJson json := (entries names json).bind build
  fromJson_toJson value := by
    rw [entries_record distinct (whole value), Option.bind_some, build_values]

/-! ## Enumerations -/

/-- The name of a variant, with its content. -/
def variant : Json → Option (String × Option Json)
  | .string name => some (name, none)
  | .object [(name, content)] => some (name, some content)
  | _ => none

/-- What a variant without content may carry. -/
def isUnit : Option Json → Bool
  | none => true
  | some .null => true
  | _ => false

end Serde

end Coding
