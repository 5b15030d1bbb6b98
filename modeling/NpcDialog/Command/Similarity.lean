/-!
# Similar words

How much two words have in common, from zero to one: how many characters of
each are found in the other nearby, and how many of these are in another
order.

* `similarity` — the measure.
* `similarWords` — the words that are much like a given one.
-/

namespace NpcDialog.Command

/-- The first place from `low` up to and excluding `high` that holds a character
and was not taken; `j` is the place of the list's first character. -/
def freePlace (c : Char) (low high : Nat) (taken : List Nat) : List Char → Nat → Option Nat
  | [], _ => none
  | d :: rest, j =>
    if low ≤ j && j < high && d == c && !taken.contains j then some j
    else freePlace c low high taken rest (j + 1)

/-- The pairs of equal characters of two words that are at most `reach` apart;
`i` is the place of the list's first character. -/
def matching (reach : Nat) (other : List Char) : List Char → Nat → List (Char × Nat) → List (Char × Nat)
  | [], _, acc => acc.reverse
  | c :: rest, i, acc =>
    match freePlace c (i - reach) (i + reach + 1) (acc.map Prod.snd) other 0 with
    | some j => matching reach other rest (i + 1) ((c, j) :: acc)
    | none => matching reach other rest (i + 1) acc

/-- How much two words have in common. -/
def similarity (a b : String) : Float :=
  let a := a.toList
  let b := b.toList
  if a.isEmpty && b.isEmpty then 1
  else if a.isEmpty || b.isEmpty then 0
  else
    let pairs := matching (max a.length b.length / 2 - 1) b a 0 []
    let count := pairs.length
    if count == 0 then 0
    else
      let inOrder := ((List.range b.length).filter fun j => (pairs.map Prod.snd).contains j).filterMap
        fun j => b[j]?
      let moved := ((pairs.map Prod.fst).zip inOrder).countP fun p => p.1 != p.2
      let m := count.toFloat
      (m / a.length.toFloat + m / b.length.toFloat + (count - moved / 2).toFloat / m) / 3

/-- A list with a word in the place that its measure gives it, behind words that
are not more alike. -/
def insertByMeasure (x : Float × String) : List (Float × String) → List (Float × String)
  | [] => [x]
  | y :: rest => if x.1 < y.1 then x :: y :: rest else y :: insertByMeasure x rest

/-- The words that are much like a given one, the most similar one last. -/
def similarWords (word : String) (words : List String) : List String :=
  let measured := words.filterMap fun w =>
    let x := similarity word w
    if 0.7 < x then some (x, w) else none
  (measured.foldl (fun acc x => insertByMeasure x acc) []).map Prod.snd

end NpcDialog.Command
