import NpcDialog.Lua.Library.Operations
import NpcDialog.Lua.Pattern

/-!
# Functions on strings

The functions of the table `string`, apart from formatted and packed ones, and
the arithmetic in which numerals take part.

* `Strings.sub`, `Strings.byte`, `Strings.rep`, … — plain functions.
* `Strings.find`, `Strings.gmatch`, `Strings.gsub` — those that take patterns.
* `Strings.arith` — arithmetic on numerals.
-/

namespace NpcDialog.Lua.Strings

open Bytes (ofText)

/-- The place that a position stands for in a string of `size` bytes, where
negative ones count from the end; it is at least one. -/
def placeOf (pos : Int64) (size : Nat) : Nat :=
  let p := pos.toInt
  if 0 < p then p.toNat
  else if p == 0 then 1
  else if p < -(size : Int) then 1
  else (size + p + 1).toNat

/-- The place that a last position stands for; it is at most `size`. -/
def lastOf (pos : Int64) (size : Nat) : Nat :=
  let p := pos.toInt
  if (size : Int) < p then size
  else if 0 ≤ p then p.toNat
  else if p < -(size : Int) then 0
  else (size + p + 1).toNat

/-- A part of a string. -/
def sub (a : Args) : Proc Ending := do
  let s ← a.text 1
  let first := placeOf (← a.integer 2) s.size
  let last := lastOf (← a.integerOr 3 (-1)) s.size
  Proc.returnString (if last < first then ByteArray.empty else s.slice (first - 1) last)

/-- The bytes of a part of a string. -/
def byte (a : Args) : Proc Ending := do
  let s ← a.text 1
  let pos ← a.integerOr 2 1
  let first := placeOf pos s.size
  let last := lastOf (← a.integerOr 3 pos) s.size
  if last < first then Ending.values #[]
  else Ending.values ((Array.range (last + 1 - first)).map fun i => .ofNat (s.byteAt (first - 1 + i)).toNat)

/-- A string of bytes. -/
def char (a : Args) : Proc Ending := do
  let bytes ← (List.range a.size).mapM fun i => do
    let c ← a.integer (i + 1)
    if c.toUInt64 ≤ 255 then pure c.toUInt64.toUInt8
    else Args.refuse (i + 1) "value out of range"
  Proc.returnString (Bytes.ofList bytes)

/-- The length of a string. -/
def len (a : Args) : Proc Ending := do Ending.value (.ofNat (← a.text 1).size)

/-- A string in lower case. -/
def lower (a : Args) : Proc Ending := do Proc.returnString ((← a.text 1).mapBytes Bytes.lower)

/-- A string in upper case. -/
def upper (a : Args) : Proc Ending := do Proc.returnString ((← a.text 1).mapBytes Bytes.upper)

/-- A string backwards. -/
def reverse (a : Args) : Proc Ending := do Proc.returnString (← a.text 1).reversed

/-- `n` copies of a string behind `acc`, each behind a separator. -/
def copies (s sep : Bytes) : Nat → Bytes → Bytes
  | 0, acc => acc
  | n + 1, acc => copies s sep n (acc ++ sep ++ s)

/-- Copies of a string. -/
def rep (a : Args) : Proc Ending := do
  let s ← a.text 1
  let n ← a.integer 2
  let sep ← a.textOr 3 ByteArray.empty
  let n := n.toInt
  if n ≤ 0 then Proc.returnString ByteArray.empty
  else if 0x7FFFFFFF / n < (s.size + sep.size : Nat) then
    Proc.failWith "resulting string too large"
  else
    let total := n.toNat * s.size + (n.toNat - 1) * sep.size
    Proc.reserve total
    if total == 0 then Proc.returnString ByteArray.empty
    else if s.size == 1 && sep.size == 0 then
      Proc.returnString (Bytes.replicate n.toNat (s.byteAt 0))
    else Proc.returnString (copies s sep (n.toNat - 1) s)

/-! ## Patterns -/

/-- What a match gives, or the fault of its pattern. -/
def matched {α : Type} (r : Except String α) : Proc α :=
  match r with
  | .ok x => pure x
  | .error e => Proc.failWith e

/-- The value of the `i`-th capture of a match from `s` to `e`. -/
def captureValue (src : Bytes) (caps : Pattern.Captures) (i s e : Nat) : Proc Value :=
  match caps[i]? with
  | some (.range start stop) => Proc.string (src.slice start stop)
  | some (.position at_) => pure (.ofNat (at_ + 1))
  | some (.unfinished _) => Proc.failWith "unfinished capture"
  | none =>
    if i == 0 then Proc.string (src.slice s e)
    else Proc.failWith s!"invalid capture index %{i + 1} in replacement string"

/-- The values of all captures of a match. -/
def captureValues (src : Bytes) (caps : Pattern.Captures) (s e : Nat) (wholeIfNone : Bool) :
    Proc (Array Value) := do
  let n := if caps.size == 0 && wholeIfNone then 1 else caps.size
  let vs ← (List.range n).mapM fun i => captureValue src caps i s e
  return vs.toArray

/-- Looks for a pattern: where it is, or what it caught. -/
def lookFor (find : Bool) (a : Args) : Proc Ending := do
  let s ← a.text 1
  let pat ← a.text 2
  let start := placeOf (← a.integerOr 3 1) s.size - 1
  if s.size < start then Ending.value .nil
  else if find && ((a.get 4).isTrue || Pattern.isPlain pat) then
    match s.find? pat start with
    | some i => Ending.values #[.ofNat (i + 1), .ofNat (i + pat.size)]
    | none => Ending.value .nil
  else
    match ← matched (Pattern.search s pat start) with
    | none => Ending.value .nil
    | some (i, e, caps) => do
      let vs ← captureValues s caps i e !find
      Ending.values (if find then #[.ofNat (i + 1), .ofNat e] ++ vs else vs)

/-- A function that gives one match after the other. -/
def gmatch (a : Args) : Proc Ending := do
  let s ← a.text 1
  let pat ← a.text 2
  let start := min (placeOf (← a.integerOr 3 1) s.size - 1) (s.size + 1)
  let f ← Proc.alter fun h =>
    h.newBound ⟨.strGmatchStep, #[.str s, .str pat, .ofNat start, .int (-1)]⟩
  Ending.value f

/-- The next match at index `s` or later that does not end where the last one
did; `n` places are tried. -/
def nextMatch (src pat : Bytes) (last : Option Nat) :
    Nat → Nat → Except String (Option (Nat × Nat × Pattern.Captures))
  | 0, _ => .ok none
  | n + 1, s =>
    match Pattern.matchAt src pat s 0 with
    | .error e => .error e
    | .ok (some (e, caps)) =>
      if last == some e then nextMatch src pat last n (s + 1) else .ok (some (s, e, caps))
    | .ok none => nextMatch src pat last n (s + 1)

/-- The next match of a function made by `gmatch`. -/
def gmatchStep (self : Nat) (own : Array Value) : Proc Ending := do
  match own.getD 0 .nil, own.getD 1 .nil, own.getD 2 .nil, own.getD 3 .nil with
  | .str s, .str pat, .int start, .int last => do
    let start := start.toInt.toNat
    let last := if last < 0 then none else some last.toInt.toNat
    match ← matched (nextMatch s pat last (s.size + 1 - start) start) with
    | none => Ending.values #[]
    | some (i, e, caps) => do
      Proc.update fun h =>
        { h with
          bounds := h.bounds.setIfInBounds self
            ⟨.strGmatchStep, #[.str s, .str pat, .ofNat e, .ofNat e]⟩ }
      Ending.values (← captureValues s caps i e true)
  | _, _, _, _ => Ending.values #[]

/-- The replacement text for a match, from index `i` of the template on; the
first argument bounds the bytes. -/
def expand (src template : Bytes) (caps : Pattern.Captures) (s e : Nat) : Nat → Nat → Bytes → Proc Bytes
  | 0, _, acc => pure acc
  | n + 1, i, acc =>
    match template.indexOf? Pattern.escape i with
    | none => pure (acc ++ template.slice i template.size)
    | some j => do
      let acc := acc ++ template.slice i j
      let c := template.byteAt (j + 1)
      if c == Pattern.escape && j + 1 < template.size then
        expand src template caps s e n (j + 2) (acc.push c)
      else if c == 48 then expand src template caps s e n (j + 2) (acc ++ src.slice s e)
      else if Bytes.isDigit c then do
        let v ← captureValue src caps (c.toNat - 49) s e
        expand src template caps s e n (j + 2) (acc ++ (Args.textOf? v).getD ByteArray.empty)
      else Proc.failWith "invalid use of '%' in replacement string"

/-- What a match is replaced with; absent if it stays. -/
def replacement (a : Args) (src : Bytes) (caps : Pattern.Captures) (s e : Nat) : Proc (Option Bytes) := do
  let judge (v : Value) : Proc (Option Bytes) :=
    if !v.isTrue then pure none
    else
      match Args.textOf? v with
      | some text => pure (some text)
      | none => Proc.failWith s!"invalid replacement value (a {v.typeName})"
  match a.get 3 with
  | .table id => do judge (← Proc.index (.table id) (← captureValue src caps 0 s e))
  | v =>
    match Args.textOf? v with
    | some template => return some (← expand src template caps s e (template.size + 1) 0 ByteArray.empty)
    | none => do judge (← Proc.callOne v (← captureValues src caps s e true))

/-- Replaces matches from index `s` on, at most `left` of them.  The answer is
the new text, whether it is another one, and the number of matches.  The first
argument bounds the steps. -/
def replaceFrom (a : Args) (src pat : Bytes) (anchored : Bool) :
    Nat → Nat → Option Nat → Nat → Bytes → Bool → Nat → Proc (Bytes × Bool × Nat)
  | 0, s, _, _, acc, changed, count => pure (acc ++ src.slice s src.size, changed, count)
  | n + 1, s, last, left, acc, changed, count => do
    let stop := pure (acc ++ src.slice s src.size, changed, count)
    if left == 0 then stop
    else
      let found ← matched (Pattern.matchAt src pat s (if anchored then 1 else 0))
      match found.filter fun r => last != some r.1 with
      | some (e, caps) => do
        let r ← replacement a src caps s e
        let acc := acc ++ r.getD (src.slice s e)
        let changed := changed || r.isSome
        if anchored then return (acc ++ src.slice e src.size, changed, count + 1)
        else replaceFrom a src pat anchored n e (some e) (left - 1) acc changed (count + 1)
      | none =>
        if s < src.size && !anchored then
          replaceFrom a src pat anchored n (s + 1) last left (acc.push (src.byteAt s)) changed count
        else stop

/-- A string with matches of a pattern replaced. -/
def gsub (a : Args) : Proc Ending := do
  let src ← a.text 1
  let pat ← a.text 2
  let bound ← a.integerOr 4 (Int64.ofNat (src.size + 1))
  let v := a.get 3
  match v with
  | .int _ | .float _ | .str _ | .table _ | .closure _ | .builtin _ | .bound _ => do
    let (text, changed, count) ← replaceFrom a src pat (Pattern.isAnchored pat) (2 * src.size + 2) 0 none
      bound.toInt.toNat ByteArray.empty false 0
    let s ← Proc.string (if changed then text else src)
    Ending.values #[s, .ofNat count]
  | _ => a.mismatch 3 "string/function/table"

/-! ## Arithmetic -/

/-- The number that an operand of an arithmetic metamethod is. -/
def operandNumber (v : Value) : Option Number :=
  match v with
  | .int n => some (.int n)
  | .float x => some (.float x)
  | .str s => Numeral.read? s
  | _ => none

/-- The operator of an event. -/
def operatorOf (event : String) : Option Operator :=
  [Operator.add, .sub, .mul, .mod, .pow, .div, .idiv].find? fun op => op.name == event

/-- Arithmetic where an operand is a string: on numbers if both operands are
numerals, and otherwise as the second operand has it. -/
def arith (event : String) (a : Args) : Proc Ending := do
  let x := a.get 1
  let y := a.get 2
  match operandNumber x, operandNumber y with
  | some p, some q =>
    match operatorOf event with
    | none => Ending.value (.ofNumber p.negate)
    | some op =>
      match Number.apply op p q with
      | .ok n => Ending.value (.ofNumber n)
      | .error .moduloByZero => Proc.failPlain (ofText "attempt to perform 'n%0'")
      | .error _ => Proc.failPlain (ofText "attempt to divide by zero")
  | _, _ => do
    let handler ← match y with
      | .str _ => pure Value.nil
      | _ => Proc.metamethod y ("__" ++ event)
    if handler.isNil then
      Proc.failWith s!"attempt to {event} a '{x.typeName}' with a '{y.typeName}'"
    else return .results #[← Proc.callOne handler #[x, y]]

end NpcDialog.Lua.Strings
