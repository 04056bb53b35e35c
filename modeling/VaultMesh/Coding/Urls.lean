import VaultMesh.Coding.Texts

/-!
# Paths of URLs and routers

What is asked of a URL parser and a router: the parser cuts the path of a URL into
encoded segments, the router compares them with the words of its patterns and
decodes the segments which stand for parameters. A text is plain if it is one
segment and means nothing to the parser; only of plain texts is it known how they
are read (`Matching`).
-/

namespace Coding.Urls

/-! ## Plain texts -/

/-- Control characters and spaces are trimmed off both ends. -/
def isTrimmed (letter : Char) : Bool :=
  letter.toNat ≤ 32

/-- A query or a fragment ends the path. -/
def endsPath (letter : Char) : Bool :=
  letter = '?' || letter = '#'

/-- A backslash is a slash too. -/
def isSlash (letter : Char) : Bool :=
  letter = '/' || letter = Char.ofNat 92

/-- A text which is one segment and stands for itself. -/
structure Plain (text : String) : Prop where
  nonempty : text.toList ≠ []
  letters : ∀ letter ∈ text.toList, isTrimmed letter = false ∧ isSlash letter = false ∧
    endsPath letter = false ∧ letter ≠ '%'
  notDots : text ≠ "." ∧ text ≠ ".."

/-- A letter which has no meaning in any part of a URL. -/
def isUnreserved (letter : Char) : Bool :=
  letter.isAlphanum || ['-', '.', '_', '~'].contains letter

theorem isUnreserved_of_isDigit {letter : Char} (digit : letter.isDigit = true) :
    isUnreserved letter = true := by
  simp [isUnreserved, Char.isAlphanum, digit]

theorem toNat_of_unreserved {letter : Char} (free : isUnreserved letter = true) :
    32 < letter.toNat ∧ letter.toNat < 127 := by
  change ((decide (letter.val ≥ 65 ∧ letter.val ≤ 90) ||
    decide (letter.val ≥ 97) && decide (letter.val ≤ 122) ||
      decide (letter.val ≥ 48) && decide (letter.val ≤ 57)) ||
        ['-', '.', '_', '~'].contains letter) = true at free
  simp only [List.contains_cons, List.contains_nil, Bool.or_eq_true, Bool.and_eq_true,
    decide_eq_true_eq, beq_iff_eq, Bool.or_false] at free
  rcases free with ((⟨low, high⟩ | ⟨low, high⟩) | ⟨low, high⟩) | rfl | rfl | rfl | rfl
  all_goals
    first
      | decide
      | have least := UInt32.le_iff_toNat_le.mp low
        have most := UInt32.le_iff_toNat_le.mp high
        simp at least most
        omega

/-- Unreserved letters mean nothing to the parser. -/
theorem plain_of_unreserved {text : String} (free : text.toList.all isUnreserved = true)
    (nonempty : text.toList ≠ []) (notDots : text ≠ "." ∧ text ≠ "..") : Plain text := by
  refine ⟨nonempty, ?_, notDots⟩
  intro letter present
  have own := List.all_eq_true.mp free letter present
  have other : ∀ mark : Char, isUnreserved mark = false → letter ≠ mark := by
    rintro mark reserved rfl
    rw [own] at reserved
    cases reserved
  refine ⟨?_, ?_, ?_, other '%' (by decide)⟩
  · have large := (toNat_of_unreserved own).1
    simpa [isTrimmed] using large
  · simp [isSlash, other '/' (by decide), other (Char.ofNat 92) (by decide)]
  · simp [endsPath, other '?' (by decide), other '#' (by decide)]

def joined (segments : List String) : List Char :=
  segments.flatMap fun segment => '/' :: segment.toList

/-! ## The parser and the router -/

/-- How the path with which a URL goes on after its authority is cut into encoded segments, and
which segments a parameter stands for, given the segments after it. -/
structure Matching where
  parsePath : String → List (List UInt8)
  encode : String → List UInt8
  decode : List UInt8 → Option String
  captures : List UInt8 → List (List UInt8) → Bool
  parsePath_of_plain : ∀ text segments, segments ≠ [] → (∀ segment ∈ segments, Plain segment) →
    text.toList = joined segments → parsePath text = segments.map encode
  encode_of_unreserved : ∀ text : String, (∀ letter ∈ text.toList, isUnreserved letter = true) →
    encode text = utf8 text
  encode_ne_nil : ∀ text, Plain text → encode text ≠ []
  decode_encode : ∀ text, Plain text → decode (encode text) = some text
  captures_of_ne_nil : ∀ segment later, segment ≠ [] → captures segment later = true

/-- A plain text of unreserved letters. -/
def IsWord (text : String) : Prop :=
  text.toList.all isUnreserved = true ∧ text.toList ≠ [] ∧ text ≠ "." ∧ text ≠ ".."

instance (text : String) : Decidable (IsWord text) :=
  inferInstanceAs (Decidable (_ ∧ _))

theorem IsWord.plain {text : String} (isWord : IsWord text) : Plain text :=
  plain_of_unreserved isWord.1 isWord.2.1 isWord.2.2

theorem Matching.encode_of_isWord (matching : Matching) {text : String} (isWord : IsWord text) :
    matching.encode text = utf8 text :=
  matching.encode_of_unreserved text (List.all_eq_true.mp isWord.1)

/-- A path of words is read as these words. -/
theorem Matching.parsePath_of_words (matching : Matching) {text : String} (words : List String)
    (some : words ≠ []) (isWord : ∀ word ∈ words, IsWord word)
    (whole : text.toList = joined words) : matching.parsePath text = words.map utf8 := by
  rw [matching.parsePath_of_plain text words some (fun word listed => (isWord word listed).plain)
    whole]
  apply List.map_congr_left
  intro word listed
  exact matching.encode_of_isWord (isWord word listed)

inductive Part where
  | word (text : String)
  | param
  deriving DecidableEq, Repr

/-- The segments which the parameters of a pattern stand for. -/
def capture (matching : Matching) : List Part → List (List UInt8) → Option (List (List UInt8))
  | [], [] => some []
  | .word text :: parts, segment :: segments =>
      if segment = utf8 text then capture matching parts segments else none
  | .param :: parts, segment :: segments =>
      if matching.captures segment segments then
        (capture matching parts segments).map (segment :: ·)
      else
        none
  | _, _ => none

/-- A pattern with its handlers, by method. -/
structure Route (Method Endpoint : Type) where
  pattern : List Part
  methods : List (Method × (List String → Option Endpoint))

/-- The endpoint for a path, or the status which refuses it. -/
def dispatch {Method Endpoint : Type} [BEq Method] (matching : Matching)
    (routes : List (Route Method Endpoint)) (method : Method) (path : List (List UInt8)) :
    Except ℕ Endpoint :=
  match routes.findSome? fun route =>
      (capture matching route.pattern path).map fun captured => (route.methods, captured) with
  | none => .error 404
  | some (methods, captured) =>
      match methods.lookup method with
      | none => .error 405
      | some build =>
          match captured.mapM matching.decode with
          | none => .error 400
          | some texts =>
              match build texts with
              | none => .error 500
              | some endpoint => .ok endpoint

theorem dispatch_error_range {Method Endpoint : Type} [BEq Method] {matching : Matching}
    {routes : List (Route Method Endpoint)} {method : Method} {path : List (List UInt8)}
    {status : ℕ} (refused : dispatch matching routes method path = .error status) :
    400 ≤ status := by
  unfold dispatch at refused
  split at refused
  · cases refused
    omega
  · split at refused
    · cases refused
      omega
    · split at refused
      · cases refused
        omega
      · split at refused
        · cases refused
          omega
        · cases refused

/-- An endpoint belongs to a route with a handler for the method. -/
theorem exists_route_of_dispatch {Method Endpoint : Type} [BEq Method] [LawfulBEq Method]
    {matching : Matching} {routes : List (Route Method Endpoint)} {method : Method}
    {path : List (List UInt8)} {endpoint : Endpoint}
    (found : dispatch matching routes method path = .ok endpoint) :
    ∃ route ∈ routes, ∃ build texts, (method, build) ∈ route.methods ∧
      build texts = some endpoint := by
  unfold dispatch at found
  split at found
  · cases found
  · next methods captured chosen =>
      rcases List.exists_of_findSome?_eq_some chosen with ⟨route, listed, matched⟩
      rcases Option.map_eq_some_iff.mp matched with ⟨_, _, same⟩
      rcases Prod.mk.inj same with ⟨rfl, rfl⟩
      split at found
      · cases found
      · next build handled =>
          split at found
          · cases found
          · next texts _ =>
              split at found
              · cases found
              · next reached built =>
                  rcases Except.ok.inj found with rfl
                  rcases List.lookup_eq_some_iff.mp handled with ⟨before, after, split, _⟩
                  refine ⟨route, listed, build, texts, ?_, built⟩
                  rw [split]
                  simp

end Coding.Urls
