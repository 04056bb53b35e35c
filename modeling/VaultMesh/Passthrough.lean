import VaultMesh.ReedSolomon

/-!
# The passthrough coder

`adapter-erasure` is the first coder behind the port: with `k = 1` it stores `n`
copies of a blob, and any copy gives the blob back. `adapter-reed-solomon` calls
itself a drop-in replacement, so each coder must read what the other wrote. With
one data shard both write the same shards, except for the empty blob. Its copies
are empty as well, and the Reed-Solomon library takes no empty shard.
-/

namespace VaultMesh

open Coding

namespace PassthroughCoder

/-- `PassthroughCoder::encode`: identical copies, of which any single one is enough. -/
def encode (data : Bytes) (params : ErasureParams) : Except Failure (List Bytes) :=
  let k := params.k.toNat
  if k ≠ 1 then
    .error (.port (.backend
      s!"passthrough coder supports k=1 only (got k={k}); use the Reed-Solomon adapter"))
  else
    .ok ((List.range (max params.n.toNat 1)).map fun _ => data)

def decode (shards : List (Option Bytes)) (params : ErasureParams) (dataLen : ℕ) :
    Except Failure Bytes :=
  if params.k.toNat ≠ 1 then
    .error (.port (.backend "passthrough coder supports k=1 only"))
  else
    match shards.findSome? id with
    | none => .error (.port (.unavailable "no shards present"))
    | some bytes =>
        let len := bytes.length
        if len < dataLen then
          .error (.port (.integrity s!"shard too short: {len} < {dataLen}"))
        else
          .ok (bytes.take dataLen)

end PassthroughCoder

def passthroughCoder : ErasureCoder where
  encode := PassthroughCoder.encode
  decode := PassthroughCoder.decode

namespace PassthroughCoder

theorem encode_ok (params : ErasureParams) (one : params.k.toNat = 1) (data : Bytes) :
    encode data params = .ok (List.replicate (max params.n.toNat 1) data) := by
  simp [encode, one, List.map_const']

theorem decode_nothing {params : ErasureParams} {slots : List (Option Bytes)}
    (one : params.k.toNat = 1) (nothing : filled slots = 0) (dataLen : ℕ) :
    decode slots params dataLen = .error (.port (.unavailable "no shards present")) := by
  have empty : slots.findSome? id = none := by
    rw [List.findSome?_eq_none_iff]
    intro slot listed
    rw [filled, List.countP_eq_zero] at nothing
    simpa using nothing slot listed
  simp [decode, one, empty]

/-- Whichever copy is found first is cut to the length of the blob. -/
theorem decode_copies {params : ErasureParams} {slots : List (Option Bytes)} {copy : Bytes}
    {count : ℕ} (one : params.k.toNat = 1)
    (masks : Masks slots (List.replicate count copy)) (enough : 0 < filled slots) (dataLen : ℕ)
    (long : dataLen ≤ copy.length) : decode slots params dataLen = .ok (copy.take dataLen) := by
  have first : slots.findSome? id = some copy := by
    rcases exists_filled_of_pos enough with ⟨value, rest, present⟩
    have found : slots.findSome? id = some value := by
      rw [← List.head?_filterMap, present, List.head?_cons]
    have symbol : value ∈ List.replicate count copy := masks.mem (by rw [present]; simp)
    rw [found, List.eq_of_mem_replicate symbol]
  have notShort : ¬copy.length < dataLen := by omega
  simp [decode, one, first, notShort]

/-- Exactly the non-empty sets of copies restore the blob. -/
theorem any_copy_restores {params : ErasureParams} (one : params.k.toNat = 1) (data : Bytes) :
    ∃ word, encode data params = .ok word ∧ word.length = max params.n.toNat 1 ∧
      ∀ kept ⊆ Finset.range word.length,
        (kept.Nonempty → decode (keepOnly kept word) params data.length = .ok data) ∧
        (kept = ∅ → decode (keepOnly kept word) params data.length =
          .error (.port (.unavailable "no shards present"))) := by
  refine ⟨_, encode_ok params one data, List.length_replicate, ?_⟩
  intro kept inside
  have present : filled (keepOnly kept (List.replicate (max params.n.toNat 1) data)) =
      kept.card := by
    rw [filled_keepOnly, Finset.filter_true_of_mem]
    intro position member
    exact Finset.mem_range.mp (inside member)
  constructor
  · intro survivors
    have restored := decode_copies one (masks_keepOnly kept _)
      (by rw [present]; exact survivors.card_pos) data.length (Nat.le_refl _)
    rwa [List.take_length] at restored
  · intro empty
    apply decode_nothing one
    rw [present, empty, Finset.card_empty]

end PassthroughCoder

/-! ## Either coder reads the shards of the other -/

/-- With one data shard every parity shard is a copy of it, and empty shards are refused. -/
structure ReedSolomonLibrary.CopiesOneShard (library : ReedSolomonLibrary) (m : ℕ) : Prop extends
    library.SystematicMDS 1 m where
  copies : ∀ shards word, library.encode 1 m shards = .ok word →
    ∀ shard ∈ word, word.head? = some shard
  refuses_empty : ∀ slots, some [] ∈ slots →
    ∃ text, library.reconstruct 1 m slots = .error text

namespace ReedSolomonCoder

variable {library : ReedSolomonLibrary}

/-- The shard of a blob which is not split: the padding shows for the empty blob only. -/
def wholeShard (data : Bytes) : Bytes :=
  if data = [] then [0] else data

theorem block_wholeShard (data : Bytes) :
    block 0 (shardSize data 1) data 0 = wholeShard data := by
  cases data with
  | nil => rfl
  | cons byte bytes => simp [block, shardSize, wholeShard]

theorem length_le_wholeShard (data : Bytes) : data.length ≤ (wholeShard data).length := by
  cases data <;> simp [wholeShard]

theorem take_wholeShard (data : Bytes) : (wholeShard data).take data.length = data := by
  cases data <;> simp [wholeShard]

/-- With one data shard the coder makes copies too, of the padded blob. -/
theorem encode_whole {n : UInt8} (positive : 1 ≤ n.toNat)
    (copying : 1 < n.toNat → library.CopiesOneShard (n.toNat - 1)) (data : Bytes) :
    encode library data ⟨1, n⟩ = .ok (List.replicate n.toNat (wholeShard data)) := by
  have valid : (⟨1, n⟩ : ErasureParams).Valid := ⟨Nat.le_refl 1, positive⟩
  have fit : library.Fit ⟨1, n⟩ := fun parity => (copying parity).toSystematicMDS
  rcases encode_ok ⟨1, n⟩ valid fit data with ⟨word, encoded, length, -, systematic⟩
  have first : word.head? = some (wholeShard data) := by
    have taken : word.take 1 = [wholeShard data] := by
      rw [← block_wholeShard]
      exact systematic
    cases word with
    | nil => simp at taken
    | cons shard shards => simpa using taken
  have same : ∀ shard ∈ word, shard = wholeShard data := by
    intro shard listed
    by_cases parity : 1 < n.toNat
    · have fromLibrary := library_encode ⟨1, n⟩ one_ne_zero parity (copying parity).new_ok encoded
      have head := (copying parity).copies _ _ fromLibrary shard listed
      exact Option.some.inj (head.symm.trans first)
    · have single : word.length = 1 := by
        change word.length = n.toNat at length
        omega
      rcases List.length_eq_one_iff.mp single with ⟨only, rfl⟩
      rcases List.mem_singleton.mp listed with rfl
      exact Option.some.inj first
  rw [encoded, List.eq_replicate_of_mem same, length]

/-- Copies of a non-empty blob are what this coder would have stored itself. -/
theorem decode_copies {n : UInt8} (positive : 1 ≤ n.toNat)
    (copying : 1 < n.toNat → library.CopiesOneShard (n.toNat - 1)) {data : Bytes}
    (nonempty : data ≠ []) {slots : List (Option Bytes)}
    (masks : Masks slots (List.replicate n.toNat data)) (enough : 0 < filled slots) :
    decode library slots ⟨1, n⟩ data.length = .ok data := by
  have encoded := encode_whole positive copying data
  rw [wholeShard, if_neg nonempty] at encoded
  have valid : (⟨1, n⟩ : ErasureParams).Valid := ⟨Nat.le_refl 1, positive⟩
  have fit : library.Fit ⟨1, n⟩ := fun parity => (copying parity).toSystematicMDS
  exact decode_encoded valid fit encoded masks enough

/-- A single copy is never given to the library. -/
theorem decode_single {slots : List (Option Bytes)} {data : Bytes}
    (masks : Masks slots [data]) (enough : 0 < filled slots) :
    decode library slots ⟨1, 1⟩ data.length = .ok data := by
  rcases masks.eq_map_some enough with rfl
  change (Except.ok ((data ++ []).take data.length) : Except Failure Bytes) = .ok data
  rw [List.append_nil, List.take_length]

/-- With parity the library is asked to reconstruct, and refuses the empty shard. -/
theorem decode_empty_copies {n : UInt8} (parity : 1 < n.toNat)
    (copying : library.CopiesOneShard (n.toNat - 1)) {slots : List (Option Bytes)}
    (masks : Masks slots (List.replicate n.toNat [])) (enough : 0 < filled slots) (dataLen : ℕ) :
    ∃ failure, decode library slots ⟨1, n⟩ dataLen = .error failure := by
  rcases exists_filled_of_pos enough with ⟨value, rest, present⟩
  have filledSlot : value ∈ slots.filterMap id := by
    rw [present]
    exact List.mem_cons_self
  rcases List.eq_of_mem_replicate (masks.mem filledSlot) with rfl
  rcases copying.refuses_empty slots (by simpa using filledSlot) with ⟨text, refused⟩
  have length : slots.length = n.toNat := by rw [masks.length_eq, List.length_replicate]
  have notFilled : refill library slots 1 n.toNat =
      .error (.port (.backend ("reed-solomon: " ++ text))) := by
    rw [refill, if_pos parity, copying.new_ok, refused]
    rfl
  have notFew : ¬filled slots < (1 : UInt8).toNat := Nat.not_lt.mpr enough
  refine ⟨.port (.backend ("reed-solomon: " ++ text)), ?_⟩
  unfold decode
  rw [if_neg (by simp [length]), if_neg (by rw [present]; simp), if_neg notFew]
  change (refill library slots 1 n.toNat >>= _) = _
  rw [notFilled]
  rfl

end ReedSolomonCoder

/-- Any copies of a blob stored by either coder restore it through the other, unless the
Reed-Solomon coder meets several empty copies. -/
theorem coders_interchange_iff (library : ReedSolomonLibrary) {n : UInt8} (positive : 1 ≤ n.toNat)
    (copying : 1 < n.toNat → library.CopiesOneShard (n.toNat - 1)) (data : Bytes)
    (kept : Finset ℕ) (inside : kept ⊆ Finset.range n.toNat) (survivors : kept.Nonempty) :
    (∃ copies word, passthroughCoder.encode data ⟨1, n⟩ = .ok copies ∧
      (reedSolomonCoder library).encode data ⟨1, n⟩ = .ok word ∧
      (reedSolomonCoder library).decode (keepOnly kept copies) ⟨1, n⟩ data.length = .ok data ∧
      passthroughCoder.decode (keepOnly kept word) ⟨1, n⟩ data.length = .ok data) ↔
    data ≠ [] ∨ n.toNat = 1 := by
  have count : max n.toNat 1 = n.toNat := by omega
  have copied : PassthroughCoder.encode data ⟨1, n⟩ = .ok (List.replicate n.toNat data) := by
    have made := PassthroughCoder.encode_ok ⟨1, n⟩ rfl data
    rwa [count] at made
  have encoded := ReedSolomonCoder.encode_whole positive copying data
  have present : ∀ shard : Bytes, 0 < filled (keepOnly kept (List.replicate n.toNat shard)) := by
    intro shard
    rw [filled_keepOnly, Finset.filter_true_of_mem]
    · exact survivors.card_pos
    · intro position member
      rw [List.length_replicate]
      exact Finset.mem_range.mp (inside member)
  have masks : ∀ shard : Bytes, Masks (keepOnly kept (List.replicate n.toNat shard))
      (List.replicate n.toNat shard) := fun shard => masks_keepOnly kept _
  have backward : PassthroughCoder.decode
      (keepOnly kept (List.replicate n.toNat (ReedSolomonCoder.wholeShard data))) ⟨1, n⟩
        data.length = .ok data := by
    rw [PassthroughCoder.decode_copies rfl (masks _) (present _) _
      (ReedSolomonCoder.length_le_wholeShard data), ReedSolomonCoder.take_wholeShard]
  constructor
  · rintro ⟨copies, word, made, -, forward, -⟩
    rcases (Except.ok.inj (copied.symm.trans made) : List.replicate n.toNat data = copies) with rfl
    by_contra neither
    rcases not_or.mp neither with ⟨empty, several⟩
    rcases not_not.mp empty with rfl
    have parity : 1 < n.toNat := by omega
    rcases ReedSolomonCoder.decode_empty_copies parity (copying parity) (masks []) (present [])
      0 with ⟨failure, refused⟩
    cases refused.symm.trans forward
  · intro readable
    refine ⟨_, _, copied, encoded, ?_, backward⟩
    by_cases nonempty : data = []
    · have one : n.toNat = 1 := readable.resolve_left (not_not.mpr nonempty)
      rcases (UInt8.toNat.inj one : n = 1) with rfl
      exact ReedSolomonCoder.decode_single (masks data) (present data)
    · exact ReedSolomonCoder.decode_copies positive copying nonempty (masks data) (present data)

/-- Copies of one shard, with the library's check that no shard is empty. -/
def checkedReplication : ReedSolomonLibrary :=
  { replication with
    reconstruct := fun k m slots =>
      if some [] ∈ slots then .error "EmptyShard" else replication.reconstruct k m slots }

theorem checkedReplication_copiesOneShard {m : ℕ} (parity : 0 < m) :
    checkedReplication.CopiesOneShard m where
  new_ok := (replication_systematicMDS parity).new_ok
  encode_ok := (replication_systematicMDS parity).encode_ok
  reconstruct_ok := by
    intro size shards word slots uniform length encoded masks enough
    have nonempty : some [] ∉ slots := by
      intro listed
      have symbol : [] ∈ word := masks.mem (by simpa using listed)
      rcases (replication_systematicMDS parity).encode_ok size shards uniform length with
        ⟨word', encoded', -, ⟨sizePositive, sizes⟩, -⟩
      rcases (Except.ok.inj (encoded.symm.trans encoded') : word = word') with rfl
      have empty := sizes [] symbol
      simp only [List.length_nil] at empty
      omega
    change (if some [] ∈ slots then .error "EmptyShard" else replication.reconstruct 1 m slots) = _
    rw [if_neg nonempty]
    exact (replication_systematicMDS parity).reconstruct_ok size shards word slots uniform length
      encoded masks enough
  copies := by
    intro shards word encoded shard listed
    rcases (Except.ok.inj encoded : (shards.map fun _ => shards.headD []) = word) with rfl
    rw [List.map_const'] at listed ⊢
    rcases List.eq_of_mem_replicate listed with rfl
    rw [List.head?_replicate, if_neg]
    rintro zero
    rw [zero] at listed
    simp at listed
  refuses_empty := by
    intro slots listed
    exact ⟨"EmptyShard", if_pos listed⟩

/-- A blob of three bytes, of which the last copy of three is left. -/
theorem coders_interchange_three_copies :
    ∃ copies word, passthroughCoder.encode [7, 8, 9] ⟨1, 3⟩ = .ok copies ∧
      (reedSolomonCoder checkedReplication).encode [7, 8, 9] ⟨1, 3⟩ = .ok word ∧
      (reedSolomonCoder checkedReplication).decode (keepOnly {2} copies) ⟨1, 3⟩ 3 =
        .ok [7, 8, 9] ∧
      passthroughCoder.decode (keepOnly {2} word) ⟨1, 3⟩ 3 = .ok [7, 8, 9] :=
  (coders_interchange_iff checkedReplication (n := 3) (by decide)
    (fun _ => checkedReplication_copiesOneShard (by decide)) [7, 8, 9] {2} (by decide)
    (by decide)).mpr (Or.inl (by decide))

/-- Two copies of an empty blob are stored, and none of their survivors can be read. -/
theorem coders_differ_on_empty_blob :
    checkedReplication.CopiesOneShard 1 ∧
      passthroughCoder.encode [] ⟨1, 2⟩ = .ok [[], []] ∧
      (reedSolomonCoder checkedReplication).decode [some [], some []] ⟨1, 2⟩ 0 =
        .error (.port (.backend "reed-solomon: EmptyShard")) :=
  ⟨checkedReplication_copiesOneShard (by decide), rfl, rfl⟩

end VaultMesh
