import NpcDialog.Bytes

/-!
# Patterns

Matching byte strings against patterns: classes of bytes with repetitions,
captures, balanced pairs and frontiers.  A match is searched for depth first,
with the longest repetition tried first unless the pattern asks for the
shortest, and the search may nest only so deep.

* `Pattern.Captures` — what the parentheses of a pattern have caught.
* `Pattern.matchAt` — a match at one place.
* `Pattern.search` — the first match from a place on.
-/

namespace NpcDialog.Lua.Pattern

open Bytes (ofText)

/-- What a pair of parentheses has caught. -/
inductive Capture where
  /-- Nothing yet, since the index where it began. -/
  | unfinished (start : Nat)
  /-- The bytes from one index to another. -/
  | range (start stop : Nat)
  /-- An index. -/
  | position (at_ : Nat)

/-- What has been caught so far, in the order of the opening parentheses. -/
abbrev Captures := Array Capture

/-- The character that gives the next one another meaning. -/
def escape : UInt8 := 37

/-! ## Classes -/

/-- Is a byte in the class of a letter? -/
def inClass (c class_ : UInt8) : Bool :=
  let member : Option Bool :=
    match Bytes.lower class_ with
    | 97 => some (Bytes.isAlpha c)
    | 99 => some (Bytes.isControl c)
    | 100 => some (Bytes.isDigit c)
    | 103 => some (Bytes.isPrintable c && c != 32)
    | 108 => some (Bytes.isLower c)
    | 112 => some (Bytes.isPunct c)
    | 115 => some (Bytes.isSpace c)
    | 117 => some (Bytes.isUpper c)
    | 119 => some (Bytes.isAlnum c)
    | 120 => some (Bytes.isHex c)
    | 122 => some (c == 0)
    | _ => none
  match member with
  | some b => if Bytes.isUpper class_ then !b else b
  | none => c == class_

/-- The index of the bracket that closes a set, looked for from index `i` on;
the first argument bounds the search. -/
def closingBracket (pat : Bytes) : Nat → Nat → Except String Nat
  | 0, _ => .error "malformed pattern (missing ']')"
  | n + 1, i =>
    if pat.size ≤ i then .error "malformed pattern (missing ']')"
    else
      let j := if pat.byteAt i == escape && i + 1 < pat.size then i + 2 else i + 1
      if pat.byteAt j == 93 && j < pat.size then .ok j else closingBracket pat n j

/-- The index behind the class that begins at an index. -/
def classEnd (pat : Bytes) (p : Nat) : Except String Nat :=
  let c := pat.byteAt p
  if c == escape then
    if pat.size ≤ p + 1 then .error "malformed pattern (ends with '%')" else .ok (p + 2)
  else if c == 91 then do
    let first := if pat.byteAt (p + 1) == 94 then p + 2 else p + 1
    let j ← closingBracket pat (pat.size + 1) first
    return j + 1
  else .ok (p + 1)

/-- Is a byte among the members of a set from index `p` on, where the set ends
at `stop`?  The first argument bounds the members. -/
def amongMembers (pat : Bytes) (c : UInt8) (stop : Nat) : Nat → Nat → Bool
  | 0, _ => false
  | n + 1, p =>
    if stop ≤ p then false
    else if pat.byteAt p == escape then
      inClass c (pat.byteAt (p + 1)) || amongMembers pat c stop n (p + 2)
    else if pat.byteAt (p + 1) == 45 && p + 2 < stop then
      (pat.byteAt p ≤ c && c ≤ pat.byteAt (p + 2)) || amongMembers pat c stop n (p + 3)
    else pat.byteAt p == c || amongMembers pat c stop n (p + 1)

/-- Is a byte in the set that begins at index `p` and whose closing bracket is at
`stop`? -/
def inSet (pat : Bytes) (c : UInt8) (p stop : Nat) : Bool :=
  if pat.byteAt (p + 1) == 94 then !amongMembers pat c stop pat.size (p + 2)
  else amongMembers pat c stop pat.size (p + 1)

/-- Does the byte at index `s` belong to the class from `p` to `stop`? -/
def matchesOne (src pat : Bytes) (s p stop : Nat) : Bool :=
  if src.size ≤ s then false
  else
    let c := src.byteAt s
    let k := pat.byteAt p
    if k == 46 then true
    else if k == escape then inClass c (pat.byteAt (p + 1))
    else if k == 91 then inSet pat c p (stop - 1)
    else k == c

/-! ## Parts of a pattern -/

/-- The index behind a balanced pair that begins at `s`; the first argument
bounds the bytes looked at. -/
def balancedEnd (src : Bytes) (opening closing : UInt8) : Nat → Nat → Nat → Option Nat
  | 0, _, _ => none
  | n + 1, s, depth =>
    if src.size ≤ s then none
    else
      let c := src.byteAt s
      if c == closing then
        if depth == 1 then some (s + 1) else balancedEnd src opening closing n (s + 1) (depth - 1)
      else if c == opening then balancedEnd src opening closing n (s + 1) (depth + 1)
      else balancedEnd src opening closing n (s + 1) depth

/-- A balanced pair at index `s`, described at index `p` of the pattern. -/
def balanced (src pat : Bytes) (s p : Nat) : Except String (Option Nat) :=
  if pat.size < p + 2 then .error "malformed pattern (missing arguments to '%b')"
  else if src.size ≤ s || src.byteAt s != pat.byteAt p then .ok none
  else .ok (balancedEnd src (pat.byteAt p) (pat.byteAt (p + 1)) src.size (s + 1) 1)

/-- The index of the innermost capture that is unfinished. -/
def innermost (caps : Captures) : Nat → Option Nat
  | 0 => none
  | n + 1 =>
    match caps[n]? with
    | some (.unfinished _) => some n
    | _ => innermost caps n

/-- What a capture has caught repeats at index `s`: the index behind it. -/
def repeatsAt (src : Bytes) (caps : Captures) (s : Nat) (digit : UInt8) : Except String (Option Nat) :=
  let index : Int := (digit.toNat : Int) - 49
  let bad : Except String (Option Nat) := .error s!"invalid capture index %{index + 1}"
  if index < 0 then bad
  else
    match caps[index.toNat]? with
    | some (.range start stop) =>
      let part := src.slice start stop
      .ok (if src.holdsAt part s then some (s + part.size) else none)
    | some (.position _) => .ok none
    | _ => bad

/-- How often in a row the class from `p` to `stop` matches from index `s` on;
the first argument bounds the count. -/
def runLength (src pat : Bytes) (p stop : Nat) : Nat → Nat → Nat
  | 0, _ => 0
  | n + 1, s => if matchesOne src pat s p stop then runLength src pat p stop n (s + 1) + 1 else 0

/-! ## Matching -/

/-- The end of a match and its captures; absent if there is none. -/
abbrev Result := Except String (Option (Nat × Captures))

/-- A search for the rest of a match, at an index of the string and one of the
pattern. -/
abbrev Rest := Nat → Nat → Captures → Result

/-- Tries the rest of a match after `n` repetitions, then after fewer. -/
def longestFirst (rest : Rest) (s p : Nat) (caps : Captures) : Nat → Result
  | 0 => rest s p caps
  | n + 1 =>
    match rest (s + (n + 1)) p caps with
    | .ok none => longestFirst rest s p caps n
    | r => r

/-- Tries the rest of a match, then once more after each further repetition; the
first argument bounds the repetitions. -/
def shortestFirst (rest : Rest) (again : Nat → Bool) (p : Nat) (caps : Captures) : Nat → Nat → Result
  | 0, s => rest s p caps
  | n + 1, s =>
    match rest s p caps with
    | .ok none => if again s then shortestFirst rest again p caps n (s + 1) else .ok none
    | r => r

/-- The greatest number of captures. -/
def captureBound : Nat := 32

/-- A match from index `s` of the string and `p` of the pattern, part after part;
`deeper` is a search one level down.  The first argument bounds the parts. -/
def matchParts (src pat : Bytes) (deeper : Rest) : Nat → Rest
  | 0, _, _, _ => .ok none
  | n + 1, s, p, caps =>
    let one (_ : Unit) : Result := do
      let stop ← classEnd pat p
      let suffix := pat.byteAt stop
      if !matchesOne src pat s p stop then
        if suffix == 42 || suffix == 63 || suffix == 45 then
          matchParts src pat deeper n s (stop + 1) caps
        else .ok none
      else if suffix == 63 then
        match ← deeper (s + 1) (stop + 1) caps with
        | some r => .ok (some r)
        | none => matchParts src pat deeper n s (stop + 1) caps
      else if suffix == 43 then
        longestFirst deeper (s + 1) (stop + 1) caps (runLength src pat p stop (src.size - s) (s + 1))
      else if suffix == 42 then
        longestFirst deeper s (stop + 1) caps (runLength src pat p stop (src.size - s) s)
      else if suffix == 45 then
        shortestFirst deeper (fun s => matchesOne src pat s p stop) (stop + 1) caps (src.size + 1 - s) s
      else matchParts src pat deeper n (s + 1) stop caps
    if pat.size ≤ p then .ok (some (s, caps))
    else
      let c := pat.byteAt p
      let d := pat.byteAt (p + 1)
      if c == 40 then
        if captureBound ≤ caps.size then .error "too many captures"
        else if d == 41 then deeper s (p + 2) (caps.push (.position s))
        else deeper s (p + 1) (caps.push (.unfinished s))
      else if c == 41 then
        match innermost caps caps.size with
        | none => .error "invalid pattern capture"
        | some k =>
          match caps[k]? with
          | some (.unfinished start) => deeper s (p + 1) (caps.setIfInBounds k (.range start s))
          | _ => .error "invalid pattern capture"
      else if c == 36 && p + 1 == pat.size then
        .ok (if s == src.size then some (s, caps) else none)
      else if c == escape && d == 98 then
        match balanced src pat s (p + 2) with
        | .error e => .error e
        | .ok none => .ok none
        | .ok (some s) => matchParts src pat deeper n s (p + 4) caps
      else if c == escape && d == 102 then
        if pat.byteAt (p + 2) != 91 then .error "missing '[' after '%f' in pattern"
        else
          match classEnd pat (p + 2) with
          | .error e => .error e
          | .ok stop =>
            let before := if s == 0 then 0 else src.byteAt (s - 1)
            if !inSet pat before (p + 2) (stop - 1) && inSet pat (src.byteAt s) (p + 2) (stop - 1) then
              matchParts src pat deeper n s stop caps
            else .ok none
      else if c == escape && Bytes.isDigit d then
        match repeatsAt src caps s d with
        | .error e => .error e
        | .ok none => .ok none
        | .ok (some s) => matchParts src pat deeper n s (p + 2) caps
      else one ()

/-- A match from index `s` of the string and `p` of the pattern; the first
argument bounds how deep the search nests. -/
def matchWithin (src pat : Bytes) : Nat → Rest
  | 0, _, _, _ => .error "pattern too complex"
  | n + 1, s, p, caps => matchParts src pat (matchWithin src pat n) (pat.size + 1) s p caps

/-- How deep a search may nest. -/
def depthBound : Nat := 200

/-- A match of the pattern from its index `p` on, at index `s` of the string. -/
def matchAt (src pat : Bytes) (s p : Nat) : Result := matchWithin src pat depthBound s p #[]

/-- Does a pattern begin with the mark that ties it to the beginning? -/
def isAnchored (pat : Bytes) : Bool := pat.byteAt 0 == 94 && pat.size != 0

/-- The first match at index `s` or later, with its start; `n` places are tried. -/
def searchFrom (src pat : Bytes) (p : Nat) (anchored : Bool) :
    Nat → Nat → Except String (Option (Nat × Nat × Captures))
  | 0, _ => .ok none
  | n + 1, s =>
    match matchAt src pat s p with
    | .error e => .error e
    | .ok (some (stop, caps)) => .ok (some (s, stop, caps))
    | .ok none => if anchored then .ok none else searchFrom src pat p anchored n (s + 1)

/-- The first match at index `s` or later, with its start. -/
def search (src pat : Bytes) (s : Nat) : Except String (Option (Nat × Nat × Captures)) :=
  let anchored := isAnchored pat
  searchFrom src pat (if anchored then 1 else 0) anchored (src.size + 1 - s) s

/-- Does a pattern hold no character with a meaning of its own? -/
def isPlain (pat : Bytes) : Bool :=
  pat.data.all fun c => !([94, 36, 42, 43, 63, 46, 40, 91, 37, 45].contains c)

end NpcDialog.Lua.Pattern
