import NpcDialog.Lua.Arith
import NpcDialog.Lua.Heap

/-!
# Metatables at work

What reading and writing a field, comparing and combining values mean where
metatables have a say.  A metamethod that is a function is never called here:
the answer names it, and whoever asked makes the call.

* `Heap.lookup` — reading a field.
* `Heap.assignment` — writing a field.
* `Heap.binaryHandler` — the metamethod of an operator.
* `Heap.compareEqual` — equality.
-/

namespace NpcDialog.Lua

open Bytes (ofText)

/-- What reading a field comes to. -/
inductive Lookup where
  /-- A value. -/
  | value (v : Value)
  /-- A call of a metamethod, with the object and the key. -/
  | handled (handler object : Value)
  /-- The object has no fields; `first` tells that it is the one asked for. -/
  | notIndexable (object : Value) (first : Bool)
  /-- The chain of tables does not end. -/
  | tooLong

/-- Where writing a field leads. -/
inductive Assignment where
  /-- The field of a table is written, whatever its metatable says. -/
  | raw (id : Nat)
  /-- A call of a metamethod, with the object, the key and the value. -/
  | handled (handler object : Value)
  /-- The object has no fields; `first` tells that it is the one asked for. -/
  | notIndexable (object : Value) (first : Bool)
  /-- The chain of tables does not end. -/
  | tooLong

/-- What equality comes to. -/
inductive Equality where
  /-- It is known. -/
  | known (b : Bool)
  /-- A metamethod decides. -/
  | handled (handler : Value)

/-- The longest chain of tables that is followed. -/
def chainBound : Nat := 2000

/-- The text of a fault of a key. -/
def Table.KeyFault.text : Table.KeyFault → Bytes
  | .nil => ofText "table index is nil"
  | .notNumber => ofText "table index is NaN"

namespace Heap

/-- The search behind `lookup`; the first argument bounds the chain. -/
def lookupFrom (h : Heap) (key : Value) : Nat → Value → Bool → Lookup
  | 0, _, _ => .tooLong
  | n + 1, v, first =>
    match v with
    | .table id =>
      let t := h.tableAt id
      let found := t.get key
      if !found.isNil then .value found
      else
        match t.metatable with
        | none => .value .nil
        | some m =>
          let handler := h.rawGetStr m (ofText "__index")
          if handler.isNil then .value .nil
          else if handler.isFunction then .handled handler v
          else lookupFrom h key n handler false
    | _ =>
      let handler := h.metamethod v "__index"
      if handler.isNil then .notIndexable v first
      else if handler.isFunction then .handled handler v
      else lookupFrom h key n handler false

/-- Reads a field. -/
def lookup (h : Heap) (v key : Value) : Lookup := h.lookupFrom key chainBound v true

/-- The search behind `assignment`; the first argument bounds the chain. -/
def assignmentFrom (h : Heap) (key : Value) : Nat → Value → Bool → Assignment
  | 0, _, _ => .tooLong
  | n + 1, v, first =>
    match v with
    | .table id =>
      let t := h.tableAt id
      match t.metatable with
      | none => .raw id
      | some m =>
        if !(t.get key).isNil then .raw id
        else
          let handler := h.rawGetStr m (ofText "__newindex")
          if handler.isNil then .raw id
          else if handler.isFunction then .handled handler v
          else assignmentFrom h key n handler false
    | _ =>
      let handler := h.metamethod v "__newindex"
      if handler.isNil then .notIndexable v first
      else if handler.isFunction then .handled handler v
      else assignmentFrom h key n handler false

/-- Where writing a field leads. -/
def assignment (h : Heap) (v key : Value) : Assignment := h.assignmentFrom key chainBound v true

/-- The metamethod of two operands for an event: that of the first, or that of
the second. -/
def binaryHandler (h : Heap) (a b : Value) (event : String) : Value :=
  let handler := h.metamethod a event
  if handler.isNil then h.metamethod b event else handler

/-- Are two values equal?  Only tables and handles can have a say in it, and
only if they are not the same. -/
def compareEqual (h : Heap) (a b : Value) : Equality :=
  if Value.same a b then .known true
  else
    let handler :=
      match a, b with
      | .table _, .table _ | .file _, .file _ | .handle _, .handle _ | .file _, .handle _
      | .handle _, .file _ => h.binaryHandler a b "__eq"
      | _, _ => .nil
    if handler.isNil then .known false else .handled handler

/-- The order of two values without metamethods, if they have one. -/
def compareOrder (orEqual : Bool) (a b : Value) : Option Bool :=
  match a.number?, b.number? with
  | some m, some n => some (if orEqual then m.le n else m.lt n)
  | _, _ =>
    match a, b with
    | .str s, .str t => some (if orEqual then Bytes.compare s t != .gt else Bytes.compare s t == .lt)
    | _, _ => none

/-- The message about two values without an order. -/
def orderMessage (h : Heap) (a b : Value) : Bytes :=
  let s := h.typeName a
  let t := h.typeName b
  if s == t then ofText "attempt to compare two " ++ s ++ ofText " values"
  else ofText "attempt to compare " ++ s ++ ofText " with " ++ t

end Heap

end NpcDialog.Lua
