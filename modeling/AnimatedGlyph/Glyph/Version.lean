/-
Semantic versions.

A version is three numbers, then pre-release identifiers after a hyphen and build
identifiers after a plus sign.  Numbers have no leading zeros and fit in 64 bits,
and so do the numeric identifiers of a pre-release, except that they may be of any
length.

`SemanticVersion.compare` is a total order.  A release comes after its
pre-releases, numeric identifiers come before words, and a list of identifiers
comes after its beginnings.  The build identifiers decide last, so that two
versions are equal only if they are written alike.
-/

namespace AnimatedGlyph

/-- A version of a program or a format. -/
structure SemanticVersion where
  /-- Rises with changes that break users. -/
  major : Nat
  /-- Rises with additions. -/
  minor : Nat
  /-- Rises with corrections. -/
  patch : Nat
  /-- The identifiers of a pre-release, none in a release. -/
  preRelease : List String
  /-- The identifiers of a build. -/
  build : List String
  deriving DecidableEq

namespace SemanticVersion

/-! ## Reading -/

/-- Whether the character is an ASCII digit. -/
def isDigit (c : Char) : Bool :=
  '0' ≤ c && c ≤ '9'

/-- Whether the character may stand in an identifier. -/
def isIdentifierChar (c : Char) : Bool :=
  isDigit c || 'a' ≤ c && c ≤ 'z' || 'A' ≤ c && c ≤ 'Z' || c == '-'

/-- The number of a run of digits. -/
def numberOf (digits : List Char) : Nat :=
  digits.foldl (fun n c => 10 * n + (c.toNat - 48)) 0

/-- Whether the digits start with a zero that another digit follows. -/
def hasLeadingZero (digits : List Char) : Bool :=
  digits.head? == some '0' && 1 < digits.length

/-- A number and what follows it. -/
def readNumber? (cs : List Char) : Option (Nat × List Char) :=
  let digits := cs.takeWhile isDigit
  if digits.isEmpty || hasLeadingZero digits || UInt64.size ≤ numberOf digits then none
  else some (numberOf digits, cs.dropWhile isDigit)

/-- What follows a given character. -/
def readMark? (mark : Char) : List Char → Option (List Char)
  | [] => none
  | c :: rest => if c = mark then some rest else none

/-- The parts between the dots of a run of identifiers. -/
def dotted : List Char → List (List Char)
  | [] => [[]]
  | c :: rest =>
    if c = '.' then [] :: dotted rest
    else
      match dotted rest with
      | [] => [[c]]
      | part :: more => (c :: part) :: more

/-- Identifiers, each accepted by `accept`, and what follows them. -/
def readIdentifiers? (accept : List Char → Bool) (cs : List Char) :
    Option (List String × List Char) :=
  let inside (c : Char) : Bool := isIdentifierChar c || c == '.'
  let parts := dotted (cs.takeWhile inside)
  if parts.all fun part => !part.isEmpty && accept part then
    some (parts.map String.ofList, cs.dropWhile inside)
  else none

/-- Whether a part may be an identifier of a pre-release. -/
def isPreReleaseIdentifier (part : List Char) : Bool :=
  !(part.all isDigit && hasLeadingZero part)

/-- The identifiers after a mark, none if the mark is absent. -/
def readMarked? (mark : Char) (accept : List Char → Bool) (cs : List Char) :
    Option (List String × List Char) :=
  match readMark? mark cs with
  | some rest => readIdentifiers? accept rest
  | none => some ([], cs)

/-- The version that a text is, if it is one. -/
def parse? (s : String) : Option SemanticVersion := do
  let (major, rest) ← readNumber? s.toList
  let (minor, rest) ← readNumber? (← readMark? '.' rest)
  let (patch, rest) ← readNumber? (← readMark? '.' rest)
  let (preRelease, rest) ← readMarked? '-' isPreReleaseIdentifier rest
  let (build, rest) ← readMarked? '+' (fun _ => true) rest
  if rest.isEmpty then some ⟨major, minor, patch, preRelease, build⟩ else none

/-! ## Order -/

/-- Whether an identifier is a number. -/
def isNumeric (identifier : String) : Bool :=
  identifier.toList.all isDigit

/-- The order of two identifiers: numbers by value and before words, words by their
characters.  Of two numbers with the same value the longer one comes later. -/
def compareIdentifiers (a b : String) : Ordering :=
  match isNumeric a, isNumeric b with
  | true, true =>
    (Ord.compare (numberOf a.toList) (numberOf b.toList)).then (Ord.compare a.length b.length)
  | true, false => .lt
  | false, true => .gt
  | false, false => Ord.compare a b

/-- The order of two lists of identifiers, a beginning coming first. -/
def compareLists : List String → List String → Ordering
  | [], [] => .eq
  | [], _ :: _ => .lt
  | _ :: _, [] => .gt
  | a :: as, b :: bs => (compareIdentifiers a b).then (compareLists as bs)

/-- The order of pre-releases, a release coming last. -/
def comparePreReleases : List String → List String → Ordering
  | [], [] => .eq
  | [], _ :: _ => .gt
  | _ :: _, [] => .lt
  | a :: as, b :: bs => compareLists (a :: as) (b :: bs)

/-- The order of versions. -/
def compare (a b : SemanticVersion) : Ordering :=
  (Ord.compare a.major b.major).then <|
    (Ord.compare a.minor b.minor).then <|
      (Ord.compare a.patch b.patch).then <|
        (comparePreReleases a.preRelease b.preRelease).then (compareLists a.build b.build)

end SemanticVersion
end AnimatedGlyph
