import VaultMesh.Coding.Erasures
import VaultMesh.Ports

/-!
# The Reed-Solomon coder

`adapter-reed-solomon` cuts a blob into `k` zero-padded blocks of one size and
lets the `reed-solomon-erasure` library add `n - k` parity shards. The library
is not part of the repository. It is a parameter here, and `SystematicMDS` says
what the coder relies on: encoding keeps the data shards, and reconstruction
refills every slot of a codeword of which `k` shards are present.

`decode_encoded` is the property which every read and every repair rests on:
any `k` of the shards made by `encode` give back the blob.
-/

namespace VaultMesh

open Coding

/-- The codec of the `reed-solomon-erasure` library, with its errors as texts. -/
structure ReedSolomonLibrary where
  new : ℕ → ℕ → Except String Unit
  encode : ℕ → ℕ → List Bytes → Except String (List Bytes)
  reconstruct : ℕ → ℕ → List (Option Bytes) → Except String (List (Option Bytes))

def Uniform (size : ℕ) (shards : List Bytes) : Prop :=
  0 < size ∧ ∀ shard ∈ shards, shard.length = size

/-- The library implements a systematic MDS code with `k` data and `m` parity shards. -/
structure ReedSolomonLibrary.SystematicMDS (library : ReedSolomonLibrary) (k m : ℕ) : Prop where
  new_ok : library.new k m = .ok ()
  encode_ok : ∀ size shards, Uniform size shards → shards.length = k + m →
    ∃ word, library.encode k m shards = .ok word ∧ word.length = k + m ∧
      Uniform size word ∧ word.take k = shards.take k
  reconstruct_ok : ∀ size shards word slots, Uniform size shards → shards.length = k + m →
    library.encode k m shards = .ok word → Masks slots word → k ≤ filled slots →
    library.reconstruct k m slots = .ok (word.map some)

/-- The library is fit for these parameters; without parity it is never called. -/
def ReedSolomonLibrary.Fit (library : ReedSolomonLibrary) (params : ErasureParams) : Prop :=
  params.k.toNat < params.n.toNat →
    library.SystematicMDS params.k.toNat (params.n.toNat - params.k.toNat)

namespace ReedSolomonCoder

variable (library : ReedSolomonLibrary)

def rsErr {α : Type} : Except String α → Except Failure α
  | .ok value => .ok value
  | .error text => .error (.port (.backend ("reed-solomon: " ++ text)))

/-- `data.len().div_ceil(k).max(1)`. -/
def shardSize (data : Bytes) (k : ℕ) : ℕ :=
  max ((data.length + k - 1) / k) 1

/-- The `k` data shards followed by zeroed slots for the parity. -/
def blankShards (data : Bytes) (k n : ℕ) : List Bytes :=
  (List.range k).map (block 0 (shardSize data k) data) ++
    List.replicate (n - k) (List.replicate (shardSize data k) 0)

/-- `ReedSolomonCoder::encode`; a zero `k` divides by zero. -/
def encode (data : Bytes) (params : ErasureParams) : Except Failure (List Bytes) :=
  let k := params.k.toNat
  let n := params.n.toNat
  if k = 0 then
    .error (.panicked "attempt to divide by zero")
  else if k < n then do
    rsErr (library.new k (n - k))
    rsErr (library.encode k (n - k) (blankShards data k n))
  else
    .ok (blankShards data k n)

def gather : List (Option Bytes) → Except Failure Bytes
  | [] => .ok []
  | some shard :: slots => do
      let rest ← gather slots
      .ok (shard ++ rest)
  | none :: _ => .error (.port (.unavailable "missing data shard"))

/-- Let the library fill the missing slots, if there is any parity. -/
def refill (shards : List (Option Bytes)) (k n : ℕ) : Except Failure (List (Option Bytes)) :=
  if k < n then do
    rsErr (library.new k (n - k))
    rsErr (library.reconstruct k (n - k) shards)
  else
    .ok shards

def decode (shards : List (Option Bytes)) (params : ErasureParams) (dataLen : ℕ) :
    Except Failure Bytes :=
  let k := params.k.toNat
  let n := params.n.toNat
  let got := shards.length
  let present := filled shards
  if got ≠ n then
    .error (.port (.backend s!"expected {n} shard slots, got {got}"))
  else if shards.filterMap id = [] then
    .error (.port (.unavailable "no shards present"))
  else if present < k then
    .error (.port (.unavailable s!"only {present} of {n} shards available (need k={k})"))
  else do
    let slots ← refill library shards k n
    let out ← gather (slots.take k)
    .ok (out.take dataLen)

end ReedSolomonCoder

def reedSolomonCoder (library : ReedSolomonLibrary) : ErasureCoder where
  encode := ReedSolomonCoder.encode library
  decode := ReedSolomonCoder.decode library

namespace ReedSolomonCoder

variable {library : ReedSolomonLibrary}

theorem length_le_shards (data : Bytes) {k : ℕ} (positive : 0 < k) :
    data.length ≤ k * shardSize data k := by
  have ceil : data.length ≤ k * ((data.length + k - 1) / k) := by
    have division := Nat.div_add_mod (data.length + k - 1) k
    have remainder := Nat.mod_lt (data.length + k - 1) positive
    omega
  exact ceil.trans (Nat.mul_le_mul_left k (Nat.le_max_left _ _))

theorem uniform_blankShards (data : Bytes) (k n : ℕ) :
    Uniform (shardSize data k) (blankShards data k n) := by
  refine ⟨by simp [shardSize], ?_⟩
  intro shard present
  simp only [blankShards, List.mem_append, List.mem_map, List.mem_replicate] at present
  rcases present with ⟨index, -, rfl⟩ | ⟨-, rfl⟩
  · exact length_block _ _ _ _
  · exact List.length_replicate

theorem length_blankShards (data : Bytes) {k n : ℕ} (ordered : k ≤ n) :
    (blankShards data k n).length = n := by
  simp [blankShards]
  omega

theorem take_blankShards (data : Bytes) (k n : ℕ) :
    (blankShards data k n).take k = (List.range k).map (block 0 (shardSize data k) data) := by
  rw [blankShards, List.take_append_of_le_length (by simp), List.take_of_length_le (by simp)]

/-- Encoding under valid parameters makes `n` shards which start with the data blocks. -/
theorem encode_ok (params : ErasureParams) (valid : params.Valid) (fit : library.Fit params)
    (data : Bytes) :
    ∃ word, encode library data params = .ok word ∧ word.length = params.n.toNat ∧
      Uniform (shardSize data params.k.toNat) word ∧
      word.take params.k.toNat =
        (List.range params.k.toNat).map (block 0 (shardSize data params.k.toNat) data) := by
  rcases valid with ⟨positive, ordered⟩
  have notZero : params.k.toNat ≠ 0 := by omega
  by_cases parity : params.k.toNat < params.n.toNat
  · have mds := fit parity
    have total : params.k.toNat + (params.n.toNat - params.k.toNat) = params.n.toNat := by omega
    rcases mds.encode_ok _ _
      (uniform_blankShards data params.k.toNat params.n.toNat)
      (by rw [length_blankShards data ordered, total]) with
        ⟨word, encoded, length, uniform, systematic⟩
    refine ⟨word, ?_, by rw [length, total], uniform, ?_⟩
    · simp only [encode, notZero, if_false, parity, if_true, mds.new_ok, encoded, rsErr]
      rfl
    · rw [systematic, take_blankShards]
  · refine ⟨blankShards data params.k.toNat params.n.toNat, ?_, length_blankShards data ordered,
      uniform_blankShards _ _ _, take_blankShards _ _ _⟩
    simp only [encode, notZero, if_false, parity]

/-- With parity the word is what the library made of the blank shards. -/
theorem library_encode (params : ErasureParams) (notZero : params.k.toNat ≠ 0)
    (parity : params.k.toNat < params.n.toNat)
    (new_ok : library.new params.k.toNat (params.n.toNat - params.k.toNat) = .ok ())
    {data : Bytes} {word : List Bytes} (encoded : encode library data params = .ok word) :
    library.encode params.k.toNat (params.n.toNat - params.k.toNat)
      (blankShards data params.k.toNat params.n.toNat) = .ok word := by
  simp only [encode, notZero, if_false, parity, if_true, new_ok, rsErr] at encoded
  change rsErr _ = _ at encoded
  cases outcome : library.encode params.k.toNat (params.n.toNat - params.k.toNat)
      (blankShards data params.k.toNat params.n.toNat) with
  | ok shards =>
      rw [outcome] at encoded
      exact congrArg Except.ok (Except.ok.inj encoded)
  | error text =>
      rw [outcome] at encoded
      cases encoded

theorem gather_map_some (shards : List Bytes) :
    gather (shards.map some) = .ok shards.flatten := by
  induction shards with
  | nil => rfl
  | cons shard shards ih =>
      simp only [List.map_cons, gather, ih, List.flatten_cons]
      rfl

/-- With parity the library refills the slots; without it all of them are present. -/
theorem refill_encoded {params : ErasureParams} (valid : params.Valid) (fit : library.Fit params)
    {data : Bytes} {word : List Bytes} {slots : List (Option Bytes)}
    (encoded : encode library data params = .ok word) (masks : Masks slots word)
    (enough : params.k.toNat ≤ filled slots) :
    refill library slots params.k.toNat params.n.toNat = .ok (word.map some) := by
  rcases valid with ⟨positive, ordered⟩
  have notZero : params.k.toNat ≠ 0 := by omega
  by_cases parity : params.k.toNat < params.n.toNat
  · have mds := fit parity
    have total : params.k.toNat + (params.n.toNat - params.k.toNat) = params.n.toNat := by omega
    have fromLibrary := library_encode params notZero parity mds.new_ok encoded
    rw [refill, if_pos parity, mds.new_ok, mds.reconstruct_ok _ _ _ _
      (uniform_blankShards _ _ _) (by rw [length_blankShards data ordered, total]) fromLibrary
      masks enough]
    rfl
  · have blank : blankShards data params.k.toNat params.n.toNat = word := by
      simpa only [encode, notZero, if_false, parity, Except.ok.injEq] using encoded
    have length : word.length = params.n.toNat := by
      rw [← blank, length_blankShards data ordered]
    rw [refill, if_neg parity, masks.eq_map_some (by omega)]

/-- Any `k` of the encoded shards give back the blob. -/
theorem decode_encoded {params : ErasureParams} (valid : params.Valid) (fit : library.Fit params)
    {data : Bytes} {word : List Bytes} {slots : List (Option Bytes)}
    (encoded : encode library data params = .ok word) (masks : Masks slots word)
    (enough : params.k.toNat ≤ filled slots) :
    decode library slots params data.length = .ok data := by
  rcases encode_ok params valid fit data with ⟨word', encoded', length, -, systematic⟩
  rcases (Except.ok.inj (encoded.symm.trans encoded') : word = word') with rfl
  have positive : 0 < params.k.toNat := valid.1
  rcases exists_filled_of_pos (by omega : 0 < filled slots) with ⟨first, others, someFilled⟩
  have gathered : gather ((word.map some).take params.k.toNat) =
      .ok ((List.range params.k.toNat).map
        (block 0 (shardSize data params.k.toNat) data)).flatten := by
    rw [← List.map_take, gather_map_some, systematic]
  have restored := take_flatten_blocks 0 (shardSize data params.k.toNat) params.k.toNat data
    (length_le_shards data positive)
  unfold decode
  rw [if_neg (by rw [masks.length_eq, length]; simp), if_neg (by rw [someFilled]; simp),
    if_neg (by omega), refill_encoded valid fit encoded masks enough]
  change (do
    let out ← gather ((word.map some).take params.k.toNat)
    (.ok (out.take data.length) : Except Failure Bytes)) = _
  rw [gathered]
  exact congrArg Except.ok restored

theorem decode_empty {params : ErasureParams} {slots : List (Option Bytes)}
    (empty : slots.filterMap id = []) (dataLen : ℕ) :
    ∃ failure, decode library slots params dataLen = .error failure := by
  unfold decode
  by_cases length : slots.length = params.n.toNat
  · exact ⟨_, by rw [if_neg (by simp [length]), if_pos empty]⟩
  · exact ⟨_, by rw [if_pos length]⟩

/-- Fewer than `k` filled slots are refused as unavailable, whatever they hold. -/
theorem decode_unavailable {params : ErasureParams} {slots : List (Option Bytes)}
    (length : slots.length = params.n.toNat) (few : filled slots < params.k.toNat) (dataLen : ℕ) :
    ∃ reason, decode library slots params dataLen = .error (.port (.unavailable reason)) := by
  unfold decode
  rw [if_neg (by simp [length])]
  by_cases nothing : slots.filterMap id = []
  · exact ⟨_, by rw [if_pos nothing]⟩
  · exact ⟨_, by rw [if_neg nothing, if_pos few]⟩

/-- The shards are `n` equally long ones, and exactly the sets of at least `k` of them restore. -/
theorem any_k_shards_restore {params : ErasureParams} (valid : params.Valid)
    (fit : library.Fit params) (data : Bytes) :
    ∃ word, encode library data params = .ok word ∧ word.length = params.n.toNat ∧
      (∃ size, 0 < size ∧ ∀ shard ∈ word, shard.length = size) ∧
      ∀ kept ⊆ Finset.range params.n.toNat,
        (params.k.toNat ≤ kept.card →
          decode library (keepOnly kept word) params data.length = .ok data) ∧
        (kept.card < params.k.toNat → ∃ reason,
          decode library (keepOnly kept word) params data.length =
            .error (.port (.unavailable reason))) := by
  rcases encode_ok params valid fit data with ⟨word, encoded, length, uniform, -⟩
  refine ⟨word, encoded, length, ⟨_, uniform⟩, ?_⟩
  intro kept inside
  have masks := masks_keepOnly kept word
  have present : filled (keepOnly kept word) = kept.card := by
    rw [filled_keepOnly, Finset.filter_true_of_mem]
    intro position member
    rw [length]
    exact Finset.mem_range.mp (inside member)
  constructor
  · intro enough
    apply decode_encoded valid fit encoded masks
    omega
  · intro few
    apply decode_unavailable
    · rw [masks.length_eq, length]
    · omega

/-- Nothing decodes under invalid parameters: encoding fails, or makes a word of another length. -/
theorem valid_of_decode {params : ErasureParams} {data out : Bytes} {word : List Bytes}
    {slots : List (Option Bytes)} {dataLen : ℕ}
    (encoded : encode library data params = .ok word) (masks : Masks slots word)
    (decoded : decode library slots params dataLen = .ok out) : params.Valid := by
  have length : slots.length = params.n.toNat := by
    by_contra different
    rw [decode, if_pos different] at decoded
    cases decoded
  have notZero : params.k.toNat ≠ 0 := by
    intro zero
    rw [encode, if_pos zero] at encoded
    cases encoded
  refine ⟨by omega, ?_⟩
  by_contra reversed
  have blank : blankShards data params.k.toNat params.n.toNat = word := by
    rw [encode, if_neg notZero, if_neg (by omega)] at encoded
    exact Except.ok.inj encoded
  have wordLength : word.length = params.k.toNat := by
    rw [← blank]
    simp [blankShards]
    omega
  have := masks.length_eq
  omega

end ReedSolomonCoder

/-! ## One data shard -/

/-- The code with one data shard: every parity shard is a copy of it. -/
def replication : ReedSolomonLibrary where
  new k m := if k = 1 ∧ 0 < m then .ok () else .error "only one data shard"
  encode _ _ shards := .ok (shards.map fun _ => shards.headD [])
  reconstruct _ _ slots :=
    match slots.filterMap id with
    | [] => .error "TooFewShardsPresent"
    | shard :: _ => .ok (slots.map fun _ => some shard)

theorem replication_systematicMDS {m : ℕ} (parity : 0 < m) : replication.SystematicMDS 1 m where
  new_ok := by simp [replication, parity]
  encode_ok := by
    rintro size shards ⟨positive, uniform⟩ length
    cases shards with
    | nil =>
        simp only [List.length_nil] at length
        omega
    | cons first others =>
        refine ⟨_, rfl, by simpa using length, ⟨positive, ?_⟩, by simp⟩
        simp only [List.headD_cons, List.map_const', List.mem_replicate, and_imp,
          forall_eq_apply_imp_iff]
        intro _
        exact uniform first (by simp)
  reconstruct_ok := by
    intro size shards word slots _ length encoded masks enough
    rcases exists_filled_of_pos enough with ⟨value, rest, present⟩
    have constant : word = List.replicate shards.length (shards.headD []) := by
      rw [← Except.ok.inj encoded, List.map_const']
    have same : value = shards.headD [] := by
      have symbol : value ∈ word := masks.mem (by rw [present]; simp)
      rw [constant] at symbol
      exact List.eq_of_mem_replicate symbol
    have lengths : slots.length = shards.length := by
      rw [masks.length_eq, constant, List.length_replicate]
    simp only [replication, present, constant, same, List.map_const', List.map_replicate, lengths]

/-- One of three copies of an empty blob is enough, none is not. -/
theorem any_k_shards_restore_copies :
    ∃ word, ReedSolomonCoder.encode replication [] ⟨1, 3⟩ = .ok word ∧ word.length = 3 ∧
      ReedSolomonCoder.decode replication (keepOnly {2} word) ⟨1, 3⟩ 0 = .ok [] ∧
      ∃ reason, ReedSolomonCoder.decode replication (keepOnly ∅ word) ⟨1, 3⟩ 0 =
        .error (.port (.unavailable reason)) := by
  have valid : (⟨1, 3⟩ : ErasureParams).Valid := by decide
  rcases ReedSolomonCoder.any_k_shards_restore valid
    (fun _ => replication_systematicMDS (by decide)) [] with
    ⟨word, encoded, length, -, subsets⟩
  exact ⟨word, encoded, length, (subsets {2} (by decide)).1 (by decide),
    (subsets ∅ (by decide)).2 (by decide)⟩

end VaultMesh
