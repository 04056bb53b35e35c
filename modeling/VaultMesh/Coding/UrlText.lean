import VaultMesh.Coding.Urls

/-!
# Texts of URLs

The parser of the URL standard and a router which percent-decodes (`standard`).
The parser trims the text, drops tabs and newlines, cuts it at the query or the
fragment, splits it at slashes of either kind, removes dot segments and
percent-encodes what may not stand in a path. Whether a parameter may stand for an
empty segment differs between routers and is left open.
-/

namespace Coding.Urls

/-! ## The parser -/

def isDropped (letter : Char) : Bool :=
  letter = '\t' || letter = '\n' || letter = '\r'

def pathText (text : List Char) : List Char :=
  ((text.reverse.dropWhile isTrimmed).reverse.filter fun letter => !isDropped letter).takeWhile
    fun letter => !endsPath letter

def isSingleDot (segment : List Char) : Bool :=
  segment.map Char.toLower ∈ [".".toList, "%2e".toList]

def isDoubleDot (segment : List Char) : Bool :=
  segment.map Char.toLower ∈ ["..".toList, ".%2e".toList, "%2e.".toList, "%2e%2e".toList]

/-- Remove the dot segments; `above` are the segments kept so far, the last one first. -/
def removeDots (above : List (List Char)) : List (List Char) → List (List Char)
  | [] => above.reverse
  | [last] =>
      if isDoubleDot last then ([] :: above.tail).reverse
      else if isSingleDot last then ([] :: above).reverse
      else (last :: above).reverse
  | segment :: rest =>
      if isDoubleDot segment then removeDots above.tail rest
      else if isSingleDot segment then removeDots above rest
      else removeDots (segment :: above) rest

/-- Characters which the parser percent-encodes. -/
def isEncoded (letter : Char) : Bool :=
  letter.toNat ≤ 32 || 127 ≤ letter.toNat ||
    [34, 35, 60, 62, 63, 96, 123, 125].contains letter.toNat

/-- An upper-case hexadecimal digit. -/
def hexDigitUpper (value : ℕ) : UInt8 :=
  if value < 10 then UInt8.ofNat (48 + value) else UInt8.ofNat (55 + value)

def percentByte (byte : UInt8) : List UInt8 :=
  [37, hexDigitUpper (byte.toNat / 16), hexDigitUpper (byte.toNat % 16)]

def encodeLetter (letter : Char) : List UInt8 :=
  if isEncoded letter then
    (String.utf8EncodeChar letter).flatMap percentByte
  else
    String.utf8EncodeChar letter

def encode (segment : List Char) : List UInt8 :=
  segment.flatMap encodeLetter

/-- The encoded segments of the path with which a URL goes on after its authority. -/
def parsePath (text : String) : List (List UInt8) :=
  (removeDots [] ((pathText text.toList).splitOnP isSlash).tail).map encode

/-! ## Percent-decoding -/

def hexDigitValue (digit : UInt8) : Option ℕ :=
  let code := digit.toNat
  if 48 ≤ code ∧ code ≤ 57 then some (code - 48)
  else if 97 ≤ code ∧ code ≤ 102 then some (code - 87)
  else if 65 ≤ code ∧ code ≤ 70 then some (code - 55)
  else none

/-- The byte which a percent sign and two digits stand for. -/
def escaped (sign high low : UInt8) : Option UInt8 := do
  let high ← hexDigitValue high
  let low ← hexDigitValue low
  if sign = 37 then some (UInt8.ofNat (high * 16 + low)) else none

def percentDecode : List UInt8 → List UInt8
  | [] => []
  | [byte] => [byte]
  | [byte, next] => [byte, next]
  | sign :: high :: low :: rest =>
      match escaped sign high low with
      | some byte => byte :: percentDecode rest
      | none => sign :: percentDecode (high :: low :: rest)

/-- The text of a segment, if it is one. -/
def decodeSegment (segment : List UInt8) : Option String :=
  String.fromUTF8? ⟨(percentDecode segment).toArray⟩

/-! ## Encoded texts -/

theorem percentDecode_cons_of_ne {byte : UInt8} (plain : byte ≠ 37) (rest : List UInt8) :
    percentDecode (byte :: rest) = byte :: percentDecode rest := by
  match rest with
  | [] => rfl
  | [_] => rfl
  | high :: low :: rest =>
      have kept : escaped byte high low = none := by
        simp [escaped, plain]
      rw [percentDecode, kept]

theorem percentDecode_percentByte (byte : UInt8) (rest : List UInt8) :
    percentDecode (percentByte byte ++ rest) = byte :: percentDecode rest := by
  have digits : ∀ digit : Fin 16, hexDigitValue (hexDigitUpper digit) = some digit.val := by
    decide
  have bound := byte.toNat_lt
  have high := digits ⟨byte.toNat / 16, by omega⟩
  have low := digits ⟨byte.toNat % 16, by omega⟩
  have whole : UInt8.ofNat (byte.toNat / 16 * 16 + byte.toNat % 16) = byte := by
    rw [Nat.div_add_mod', UInt8.ofNat_toNat]
  have read : escaped 37 (hexDigitUpper (byte.toNat / 16)) (hexDigitUpper (byte.toNat % 16)) =
      some byte := by
    simp only at high low
    simp only [escaped, high, low, Option.bind_eq_bind, Option.bind_some, if_true, whole]
  simp [percentByte, percentDecode, read]

theorem percentDecode_flatMap (bytes rest : List UInt8) :
    percentDecode (bytes.flatMap percentByte ++ rest) = bytes ++ percentDecode rest := by
  induction bytes with
  | nil => rfl
  | cons byte bytes ih =>
      rw [List.flatMap_cons, List.append_assoc, percentDecode_percentByte, ih, List.cons_append]

theorem utf8EncodeChar_of_lt {letter : Char} (small : letter.toNat < 128) :
    String.utf8EncodeChar letter = [UInt8.ofNat letter.toNat] :=
  if_pos (Nat.le_of_lt_succ small)

theorem toNat_lt_of_not_encoded {letter : Char} (kept : isEncoded letter = false) :
    letter.toNat < 128 := by
  simp only [isEncoded, Bool.or_eq_false_iff, decide_eq_false_iff_not] at kept
  omega

theorem percentDecode_encode {segment : List Char} (plain : '%' ∉ segment) :
    percentDecode (encode segment) = segment.flatMap String.utf8EncodeChar := by
  induction segment with
  | nil => rfl
  | cons letter segment ih =>
      have later := ih fun present => plain (List.mem_cons_of_mem _ present)
      have other : letter ≠ '%' := fun same => plain (same ▸ List.mem_cons_self)
      simp only [encode, List.flatMap_cons, encodeLetter] at later ⊢
      cases kept : isEncoded letter with
      | true =>
          simp only [if_true]
          rw [percentDecode_flatMap, later]
      | false =>
          have small := toNat_lt_of_not_encoded kept
          have byte : UInt8.ofNat letter.toNat ≠ 37 := by
            intro same
            apply other
            apply Char.toNat_inj.mp
            have codes := congrArg UInt8.toNat same
            rw [UInt8.toNat_ofNat', Nat.mod_eq_of_lt (by omega)] at codes
            exact codes
          simp only [Bool.false_eq_true, if_false, utf8EncodeChar_of_lt small,
            List.singleton_append]
          rw [percentDecode_cons_of_ne byte, later]

/-- Without percent signs, a captured segment is the text which was sent. -/
theorem decodeSegment_encode {text : String} (plain : '%' ∉ text.toList) :
    decodeSegment (encode text.toList) = some text := by
  rw [decodeSegment, fromUTF8?_eq_some_iff, percentDecode_encode plain, utf8_eq_flatMap]

/-- A text without encoded letters is sent as it is. -/
theorem encode_of_kept {text : String}
    (kept : ∀ letter ∈ text.toList, isEncoded letter = false) :
    encode text.toList = utf8 text := by
  rw [utf8_eq_flatMap, encode]
  apply List.flatMap_congr
  intro letter present
  simp [encodeLetter, kept letter present]

theorem encode_ne_nil {segment : List Char} (nonempty : segment ≠ []) : encode segment ≠ [] := by
  cases segment with
  | nil => exact absurd rfl nonempty
  | cons letter segment =>
      simp only [encode, List.flatMap_cons, encodeLetter]
      split
      · cases bytes : String.utf8EncodeChar letter with
        | nil => exact absurd bytes String.utf8EncodeChar_ne_nil
        | cons byte bytes => simp [percentByte]
      · simp [String.utf8EncodeChar_ne_nil]

/-! ## Plain paths -/

theorem joined_letters {segments : List String} (plain : ∀ segment ∈ segments, Plain segment)
    {letter : Char} (present : letter ∈ joined segments) :
    isTrimmed letter = false ∧ endsPath letter = false := by
  rcases List.mem_flatMap.mp present with ⟨segment, listed, inside⟩
  rcases List.mem_cons.mp inside with rfl | inside
  · exact ⟨by decide, by decide⟩
  · have kept := (plain segment listed).letters letter inside
    exact ⟨kept.1, kept.2.2.1⟩

theorem pathText_joined {segments : List String} (plain : ∀ segment ∈ segments, Plain segment) :
    pathText (joined segments) = joined segments := by
  have untrimmed : (joined segments).reverse.dropWhile isTrimmed = (joined segments).reverse := by
    cases letters : (joined segments).reverse with
    | nil => rfl
    | cons letter rest =>
        have present : letter ∈ joined segments := by
          rw [← List.mem_reverse, letters]
          exact List.mem_cons_self
        simp [(joined_letters plain present).1]
  have undropped : (joined segments).filter (fun letter => !isDropped letter) =
      joined segments := by
    apply List.filter_eq_self.mpr
    intro letter present
    have untrimmed := (joined_letters plain present).1
    cases dropped : isDropped letter with
    | false => rfl
    | true =>
        simp only [isDropped, Bool.or_eq_true, decide_eq_true_eq] at dropped
        rcases dropped with (rfl | rfl) | rfl <;> cases untrimmed
  have whole : (joined segments).takeWhile (fun letter => !endsPath letter) = joined segments := by
    have kept : ∀ letter ∈ joined segments, (!endsPath letter) = true := by
      intro letter present
      simp [(joined_letters plain present).2]
    simpa using @List.takeWhile_append_of_pos _ _ _ [] kept
  rw [pathText, untrimmed, List.reverse_reverse, undropped, whole]

theorem splitOnP_joined {first : String} {segments : List String} (plainFirst : Plain first)
    (plain : ∀ segment ∈ segments, Plain segment) :
    (first.toList ++ joined segments).splitOnP isSlash =
      first.toList :: segments.map String.toList := by
  have unsplit : ∀ letter ∈ first.toList, isSlash letter = false := by
    intro letter present
    exact (plainFirst.letters letter present).2.1
  induction segments generalizing first with
  | nil =>
      simp only [joined, List.flatMap_nil, List.append_nil, List.map_nil]
      exact List.splitOnP_eq_singleton unsplit
  | cons next segments ih =>
      have plainNext := plain next List.mem_cons_self
      have later := ih plainNext
        (fun segment present => plain segment (List.mem_cons_of_mem _ present))
        fun letter present => (plainNext.letters letter present).2.1
      have split : first.toList ++ joined (next :: segments) =
          first.toList ++ '/' :: (next.toList ++ joined segments) := by
        simp [joined]
      rw [split, List.splitOnP_append_cons_of_forall_mem unsplit _ (by decide), later,
        List.map_cons]

theorem toLower_eq_of_not_lower {letter mark : Char} (lowered : letter.toLower = mark)
    (notLower : mark.toNat < 97) : letter = mark := by
  unfold Char.toLower at lowered
  split at lowered
  · next upper =>
      subst lowered
      have low : 65 ≤ letter.val.toNat := UInt32.le_iff_toNat_le.mp upper.1
      have high : letter.val.toNat ≤ 90 := UInt32.le_iff_toNat_le.mp upper.2
      have code : (letter.val + ('a'.val - 'A'.val)).toNat < 97 := notLower
      have shift : ('a'.val - 'A'.val).toNat = 32 := by decide
      rw [UInt32.toNat_add, shift] at code
      omega
  · exact lowered

theorem Plain.not_dots {text : String} (plain : Plain text) :
    isSingleDot text.toList = false ∧ isDoubleDot text.toList = false := by
  have dot : '.'.toNat < 97 := by decide
  have sign : '%'.toNat < 97 := by decide
  have unsigned : ∀ front back : List Char,
      text.toList.map Char.toLower ≠ front ++ '%' :: back := by
    intro front back same
    rcases List.map_eq_append_iff.mp same with ⟨_, rest, split, _, tail⟩
    rcases List.map_eq_cons_iff.mp tail with ⟨letter, _, rfl, lowered, _⟩
    have present : letter ∈ text.toList := by simp [split]
    exact (plain.letters letter present).2.2.2 (toLower_eq_of_not_lower lowered sign)
  constructor
  · simp only [isSingleDot, decide_eq_false_iff_not, List.mem_cons, List.not_mem_nil, or_false,
      not_or]
    refine ⟨?_, unsigned [] "2e".toList⟩
    intro same
    rcases List.map_eq_cons_iff.mp same with ⟨letter, rest, split, lowered, tail⟩
    rw [toLower_eq_of_not_lower lowered dot, List.map_eq_nil_iff.mp tail] at split
    exact plain.notDots.1 (String.toList_inj.mp split)
  · simp only [isDoubleDot, decide_eq_false_iff_not, List.mem_cons, List.not_mem_nil, or_false,
      not_or]
    refine ⟨?_, unsigned ['.'] "2e".toList, unsigned [] "2e.".toList, unsigned [] "2e%2e".toList⟩
    intro same
    rcases List.map_eq_cons_iff.mp same with ⟨letter, rest, split, lowered, tail⟩
    rcases List.map_eq_cons_iff.mp tail with ⟨next, after, splitRest, loweredNext, tailRest⟩
    rw [toLower_eq_of_not_lower lowered dot, splitRest, toLower_eq_of_not_lower loweredNext dot,
      List.map_eq_nil_iff.mp tailRest] at split
    exact plain.notDots.2 (String.toList_inj.mp split)

theorem removeDots_of_plain {segments : List String} (above : List (List Char))
    (plain : ∀ segment ∈ segments, Plain segment) :
    removeDots above (segments.map String.toList) =
      above.reverse ++ segments.map String.toList := by
  induction segments generalizing above with
  | nil => simp [removeDots]
  | cons segment segments ih =>
      have dots := (plain segment List.mem_cons_self).not_dots
      have later := ih (segment.toList :: above)
        fun other present => plain other (List.mem_cons_of_mem _ present)
      cases segments with
      | nil => simp [removeDots, dots]
      | cons next segments =>
          simp only [List.map_cons, removeDots, dots, Bool.false_eq_true, if_false] at later ⊢
          simpa using later

/-- A path of plain texts is read as these texts. -/
theorem parsePath_of_plain {text : String} {segments : List String} (some : segments ≠ [])
    (plain : ∀ segment ∈ segments, Plain segment) (whole : text.toList = joined segments) :
    parsePath text = segments.map fun segment => encode segment.toList := by
  cases segments with
  | nil => exact absurd rfl some
  | cons first segments =>
      have later : ∀ segment ∈ segments, Plain segment :=
        fun segment present => plain segment (List.mem_cons_of_mem _ present)
      have split : joined (first :: segments) =
          [] ++ '/' :: (first.toList ++ joined segments) := by
        simp [joined]
      have pieces : (joined (first :: segments)).splitOnP isSlash =
          [] :: (first :: segments).map String.toList := by
        rw [split, List.splitOnP_append_cons_of_forall_mem (by simp) _ (by decide),
          splitOnP_joined (plain first List.mem_cons_self) later, List.map_cons]
      rw [parsePath, whole, pathText_joined plain, pieces, List.tail_cons,
        removeDots_of_plain [] plain, List.reverse_nil, List.nil_append, List.map_map]
      rfl

/-! ## The instance -/

theorem isEncoded_of_unreserved {letter : Char} (free : isUnreserved letter = true) :
    isEncoded letter = false := by
  rw [Bool.eq_false_iff]
  intro encoded
  have range := toNat_of_unreserved free
  simp only [isEncoded, Bool.or_eq_true, decide_eq_true_eq, List.contains_iff_mem] at encoded
  rcases encoded with (small | large) | listed
  · omega
  · omega
  · have reserved : ∀ code ∈ [34, 35, 60, 62, 63, 96, 123, 125],
        isUnreserved (Char.ofNat code) = false := by
      decide
    have shut := reserved _ listed
    rw [Char.ofNat_toNat, free] at shut
    cases shut

/-- This parser and decoder, in front of a router which may or may not take empty segments. -/
def standard (captures : List UInt8 → List (List UInt8) → Bool)
    (captures_of_ne_nil : ∀ segment later, segment ≠ [] → captures segment later = true) :
    Matching where
  parsePath := parsePath
  encode text := encode text.toList
  decode := decodeSegment
  captures := captures
  parsePath_of_plain _ _ some plain whole := parsePath_of_plain some plain whole
  encode_of_unreserved _ free :=
    encode_of_kept fun letter present => isEncoded_of_unreserved (free letter present)
  encode_ne_nil _ plain := encode_ne_nil plain.nonempty
  decode_encode _ plain :=
    decodeSegment_encode fun present => (plain.letters _ present).2.2.2 rfl
  captures_of_ne_nil := captures_of_ne_nil

end Coding.Urls
