import Mathlib.Data.List.AList
import VaultMesh.Files.FileSystem

/-!
# Object stores

An object store keeps bytes under keys, which are lists of parts. A key is made
from a text by dropping its empty parts and encoding the others. There are no
directories: a listing names the keys which go on from some front, part by part,
and every object is removed on its own. Requests may be refused for reasons of
the service.
-/

namespace Files

abbrev ObjectKey := List String

abbrev Bucket := AList fun _ : ObjectKey => List UInt8

/-- What a client asks; a listing is asked for the next object again and again. -/
inductive ObjectRequest where
  | put (key : ObjectKey)
  | get (key : ObjectKey)
  | list (front : ObjectKey)
  | next (key : ObjectKey)
  | delete (key : ObjectKey)
  deriving DecidableEq, Repr

/-- What the service is free to choose. -/
structure ObjectService where
  encodePart : String → String
  encodePart_injective : Function.Injective encodePart
  order : List ObjectKey → List ObjectKey
  order_perm : ∀ keys, (order keys).Perm keys
  refusal : ObjectRequest → Option String

/-- The parts of a text: what stands between slashes, where something does. -/
def parts (text : String) : List String :=
  (Path.split text).filter fun part => decide (part ≠ "")

/-- A text which is one part. -/
structure IsPart (text : String) : Prop where
  slashFree : '/' ∉ text.toList
  nonempty : text ≠ ""

namespace ObjectService

def key (service : ObjectService) (text : String) : ObjectKey :=
  (parts text).map service.encodePart

def put (service : ObjectService) (bucket : Bucket) (key : ObjectKey) (bytes : List UInt8) :
    Except String Unit × Bucket :=
  match service.refusal (.put key) with
  | some reason => (.error reason, bucket)
  | none => (.ok (), bucket.insert key bytes)

/-- Nothing is there, or the service says why not. -/
inductive GetError where
  | notFound
  | refused (reason : String)
  deriving DecidableEq, Repr

def get (service : ObjectService) (bucket : Bucket) (key : ObjectKey) :
    Except GetError (List UInt8) :=
  match service.refusal (.get key) with
  | some reason => .error (.refused reason)
  | none =>
      match bucket.lookup key with
      | some bytes => .ok bytes
      | none => .error .notFound

def delete (service : ObjectService) (bucket : Bucket) (key : ObjectKey) :
    Except String Unit × Bucket :=
  match service.refusal (.delete key) with
  | some reason => (.error reason, bucket)
  | none => (.ok (), bucket.erase key)

/-- The keys which go on from the front. -/
def listed (service : ObjectService) (bucket : Bucket) (front : ObjectKey) : List ObjectKey :=
  service.order (bucket.keys.filter fun key => decide (front <+: key ∧ front ≠ key))

/-- The service refuses nothing. -/
def Willing (service : ObjectService) : Prop :=
  ∀ request, service.refusal request = none

end ObjectService

/-! ## Keys -/

theorem parts_of_isPart {text : String} (isPart : IsPart text) : parts text = [text] := by
  simp [parts, Path.split_of_slashFree isPart.slashFree, isPart.nonempty]

theorem parts_append_slash (first second : String) :
    parts (first ++ "/" ++ second) = parts first ++ parts second := by
  rw [parts, Path.split_append_slash, List.filter_append]
  rfl

namespace ObjectService

variable {service : ObjectService} {bucket : Bucket} {front key : ObjectKey}

theorem map_encodePart_inj {first second : List String} :
    first.map service.encodePart = second.map service.encodePart ↔ first = second :=
  (List.map_injective_iff.mpr service.encodePart_injective).eq_iff

/-- Encoding keeps which keys go on from which. -/
theorem map_encodePart_isPrefix {first second : List String} :
    first.map service.encodePart <+: second.map service.encodePart ↔ first <+: second := by
  constructor
  · intro isPrefix
    have front := List.prefix_iff_eq_take.mp isPrefix
    rw [List.length_map, ← List.map_take] at front
    rw [map_encodePart_inj.mp front]
    exact List.take_prefix _ _
  · exact fun isPrefix => isPrefix.map _

theorem mem_listed : key ∈ service.listed bucket front ↔
    key ∈ bucket ∧ front <+: key ∧ front ≠ key := by
  rw [listed, (service.order_perm _).mem_iff, List.mem_filter, decide_eq_true_iff, AList.mem_keys]

end ObjectService

/-! ## Signed URLs -/

/-- What a signed URL may be used for. -/
inductive Transfer where
  | put
  | get
  deriving DecidableEq, Repr

/-- URLs which stand for one transfer of one object, for so many seconds from when they were
signed. The clock is read in seconds. -/
structure SignedUrls where
  sign : Transfer → ObjectKey → ℕ → ℕ → Except String String
  opens : Transfer → String → ℕ → Option ObjectKey
  opens_sign : ∀ transfer key issued ttl url now, sign transfer key issued ttl = .ok url →
    issued ≤ now → now ≤ issued + ttl → opens transfer url now = some key
  sign_of_opens : ∀ transfer transfer' key key' issued ttl url now,
    sign transfer key issued ttl = .ok url → opens transfer' url now = some key' →
      transfer' = transfer ∧ key' = key ∧ now ≤ issued + ttl

namespace SignedUrls

variable {urls : SignedUrls} {transfer : Transfer} {key : ObjectKey} {issued ttl now : ℕ}
  {url : String}

/-- A URL which opens nothing is not used in its time. -/
theorem late_of_opens_none (signed : urls.sign transfer key issued ttl = .ok url)
    (shut : urls.opens transfer url now = none) : ¬(issued ≤ now ∧ now ≤ issued + ttl) := by
  rintro ⟨after, before⟩
  rw [urls.opens_sign _ _ _ _ _ _ signed after before] at shut
  cases shut

theorem key_of_opens {other : ObjectKey} (signed : urls.sign transfer key issued ttl = .ok url)
    (opened : urls.opens transfer url now = some other) : other = key :=
  (urls.sign_of_opens _ _ _ _ _ _ _ _ signed opened).2.1

end SignedUrls

end Files
