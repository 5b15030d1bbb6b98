import NpcDialog.Lua.Library.Base
import NpcDialog.Lua.Library.Callbacks
import NpcDialog.Lua.Library.Coroutines
import NpcDialog.Lua.Library.Format
import NpcDialog.Lua.Library.Modules
import NpcDialog.Lua.Library.Numbers
import NpcDialog.Lua.Library.Packing
import NpcDialog.Lua.Library.Streams
import NpcDialog.Lua.Library.System
import NpcDialog.Lua.Library.Tables
import NpcDialog.Lua.Library.Unicode

/-!
# The library

What each built-in function does, and the heap with which every program begins.

* `Builtin.routine` — the routine of a function.
* `Heap.fresh` — a heap with all libraries in it.
-/

namespace NpcDialog.Lua

open Bytes (ofText)

/-- What a built-in function does with its arguments.  `own` are the number and
the values of a function that has values of its own. -/
def Builtin.proc (b : Builtin) (own : Option (Nat × Array Value)) (a : Args) : Proc Ending :=
  let ownValues := own.elim #[] Prod.snd
  match b with
  | .assert => Base.assert a
  | .collectgarbage => Base.collect a
  | .dofile => Loading.doFile a
  | .error => Base.error a
  | .getmetatable => Base.getMetatable a
  | .ipairs => Base.ipairs a
  | .ipairsStep => Base.ipairsStep a
  | .load => Loading.load a
  | .loadfile => Loading.loadFile a
  | .next => Base.next a
  | .pairs => Base.pairs a
  | .pcall => Base.pcall a
  | .print => Base.print a
  | .rawequal => Base.rawEqual a
  | .rawget => Base.rawGet a
  | .rawlen => Base.rawLength a
  | .rawset => Base.rawSet a
  | .require => Modules.require a
  | .select => Base.select a
  | .setmetatable => Base.setMetatable a
  | .tonumber => Base.toNumber a
  | .tostring => Base.toText a
  | .type => Base.type a
  | .warn => Base.warn a
  | .xpcall => Base.xpcall a
  | .coClose => Coroutines.close a
  | .coCreate => Coroutines.create a
  | .coIsyieldable => Coroutines.isYieldable a
  | .coResume => Coroutines.resume a
  | .coRunning => Coroutines.running a
  | .coStatus => Coroutines.status a
  | .coWrap => Coroutines.wrap a
  | .coWrapStep => Coroutines.wrapStep ownValues a
  | .coYield => Coroutines.yield a
  | .tabConcat => Tables.concat a
  | .tabInsert => Tables.insert a
  | .tabMove => Tables.move a
  | .tabPack => Tables.pack a
  | .tabRemove => Tables.remove a
  | .tabSort => Tables.sort a
  | .tabUnpack => Tables.unpack a
  | .strByte => Strings.byte a
  | .strChar => Strings.char a
  | .strDump => Loading.dump a
  | .strFind => Strings.lookFor true a
  | .strFormat => Format.format a
  | .strGmatch => Strings.gmatch a
  | .strGmatchStep => Strings.gmatchStep (own.elim 0 Prod.fst) ownValues
  | .strGsub => Strings.gsub a
  | .strLen => Strings.len a
  | .strLower => Strings.lower a
  | .strMatch => Strings.lookFor false a
  | .strPack => Packing.pack a
  | .strPacksize => Packing.packSize a
  | .strRep => Strings.rep a
  | .strReverse => Strings.reverse a
  | .strSub => Strings.sub a
  | .strUnpack => Packing.unpack a
  | .strUpper => Strings.upper a
  | .strArith event => Strings.arith event a
  | .utfChar => Unicode.char a
  | .utfCodepoint => Unicode.codepoint a
  | .utfCodes => Unicode.codes a
  | .utfCodesStep lax => Unicode.codesStep lax a
  | .utfLen => Unicode.len a
  | .utfOffset => Unicode.offset a
  | .mathAbs => Numbers.abs a
  | .mathAcos => Numbers.viaFloat Float.acos a
  | .mathAsin => Numbers.viaFloat Float.asin a
  | .mathAtan => Numbers.atan a
  | .mathCeil => Numbers.ceil a
  | .mathCos => Numbers.viaFloat Float.cos a
  | .mathDeg => Numbers.viaFloat (fun x => x * 57.29577951308232) a
  | .mathExp => Numbers.viaFloat Float.exp a
  | .mathFloor => Numbers.floor a
  | .mathFmod => Numbers.fmod a
  | .mathLog => Numbers.log a
  | .mathMax => Numbers.extreme true a
  | .mathMin => Numbers.extreme false a
  | .mathModf => Numbers.modf a
  | .mathRad => Numbers.viaFloat (fun x => x * 0.017453292519943295) a
  | .mathRandom => Numbers.random a
  | .mathRandomseed => Numbers.seed a
  | .mathSin => Numbers.viaFloat Float.sin a
  | .mathSqrt => Numbers.viaFloat Float.sqrt a
  | .mathTan => Numbers.viaFloat Float.tan a
  | .mathTointeger => Numbers.toInteger a
  | .mathType => Numbers.kind a
  | .mathUlt => Numbers.isBelow a
  | .ioClose => Streams.closeDefault a
  | .ioFlush => Streams.flushDefault a
  | .ioInput => Streams.input a
  | .ioLines => Streams.linesDefault a
  | .ioLinesStep => Streams.linesStep ownValues
  | .ioOpen => Streams.openFile a
  | .ioOutput => Streams.output a
  | .ioPopen => Streams.runProgram a
  | .ioRead => Streams.readDefault a
  | .ioTmpfile => Streams.temporary a
  | .ioType => Streams.kind a
  | .ioWrite => Streams.writeDefault a
  | .fileClose => Streams.close a
  | .fileFlush => Streams.flush a
  | .fileLines => Streams.lines a
  | .fileRead => Streams.read a
  | .fileSeek => Streams.seek a
  | .fileSetvbuf => Streams.setBuffering a
  | .fileToString => Streams.toText a
  | .fileWrite => Streams.write a
  | .osClock => System.clock a
  | .osDate => System.date a
  | .osDifftime => System.difference a
  | .osExecute => System.execute a
  | .osExit => System.exit a
  | .osGetenv => System.environment a
  | .osRemove => System.remove a
  | .osRename => System.rename a
  | .osSetlocale => System.locale a
  | .osTime => System.time a
  | .osTmpname => System.temporaryName a
  | .pkgLoadlib => Modules.loadLibrary a
  | .pkgSearchpath => Modules.searchPath a
  | .pkgPreloadSearcher => Modules.preloadSearcher a
  | .pkgTextSearcher => Modules.textSearcher a
  | .host c => Callbacks.invoke c a

/-- The routine of a built-in function. -/
def Builtin.routine (b : Builtin) (own : Option (Nat × Array Value)) (args : Array Value) : Routine :=
  Routine.of (b.proc own ⟨args⟩)

/-! ## The beginning -/

/-- A new table of named values. -/
def Heap.newLibrary (h : Heap) (fields : List (String × Value)) : Nat × Heap :=
  let (id, h) := h.newTable (Table.withRoom 0 fields.length)
  (id, fields.foldl (fun h (name, v) => h.rawSetStr id (ofText name) v) h)

/-- The fields of a library of functions. -/
def functionFields (fs : List (String × Builtin)) : List (String × Value) :=
  fs.map fun (name, b) => (name, .builtin b)

/-- Adds a library to the globals and the loaded ones. -/
def Heap.addLibrary (h : Heap) (name : String) (fields : List (String × Value)) : Nat × Heap :=
  let (id, h) := h.newLibrary fields
  let h := h.rawSetStr h.globals (ofText name) (.table id)
  (id, h.rawSetStr h.loaded (ofText name) (.table id))

/-- The numbers of the library `math`. -/
def mathConstants : List (String × Value) :=
  [("pi", .float 3.141592653589793), ("huge", .float (1.0 / 0.0)), ("maxinteger", .int Int64.maxValue),
    ("mininteger", .int Int64.minValue)]

/-- The metatables of handles. -/
def Heap.addHandleMetas (h : Heap) : Heap :=
  Handle.all.foldl (fun h k =>
    let (id, h) := h.newLibrary [("__name", .ofText k.typeName), ("__metatable", .bool false)]
    { h with handleMetas := h.handleMetas.push id }) h

/-- Adds the library of files and streams. -/
def Heap.addStreams (h : Heap) : Heap :=
  let open_ (h : Heap) (s : StandardStream) (m : FileMode) : Value × Heap :=
    h.newFile ⟨.stream s, m, 0, true⟩
  let (input, h) := open_ h .input ⟨true, false, false⟩
  let (output, h) := open_ h .output ⟨false, true, true⟩
  let (error, h) := open_ h .error ⟨false, true, true⟩
  let (methods, h) := h.newLibrary (functionFields Builtin.file)
  let (methodMeta, h) := h.newLibrary
    [("__index", .table methods), ("__name", .ofText "FILE*"), ("__close", .builtin .fileClose),
      ("__tostring", .builtin .fileToString)]
  let (_, h) := h.addLibrary "io"
    (functionFields Builtin.io ++ [("stdin", input), ("stdout", output), ("stderr", error)])
  { h with fileMeta := some methodMeta }

/-- Adds the library of modules. -/
def Heap.addModules (h : Heap) : Heap :=
  let (preload, h) := h.newLibrary []
  let (searchers, h) := h.newTable (Table.withRoom 2 0)
  let h := h.rawSetNormal searchers (.int 1) (.builtin .pkgPreloadSearcher)
  let h := h.rawSetNormal searchers (.int 2) (.builtin .pkgTextSearcher)
  let h := (h.addLibrary "package"
    [("loadlib", .builtin .pkgLoadlib), ("searchpath", .builtin .pkgSearchpath),
      ("preload", .table preload), ("cpath", .ofText ""), ("path", .ofText Modules.defaultPath),
      ("searchers", .table searchers), ("config", .ofText "/\n;\n?\n!\n-\n"),
      ("loaded", .table h.loaded)]).2
  h.rawSetStr h.globals (ofText "require") (.builtin .require)

/-- A heap with all libraries in it. -/
def Heap.fresh (files : FileTree) : Heap :=
  let h := Heap.empty files
  let (globals, h) := h.newTable (Table.withRoom 0 32)
  let (loaded, h) := h.newTable (Table.withRoom 0 16)
  let h := { h with globals, loaded }
  let h := (functionFields Builtin.base).foldl (fun h (name, v) => h.rawSetStr globals (ofText name) v) h
  let h := h.rawSetStr globals (ofText "_G") (.table globals)
  let h := h.rawSetStr globals (ofText "_VERSION") (.ofText "Lua 5.4")
  let h := h.rawSetStr loaded (ofText "_G") (.table globals)
  let h := h.addModules
  let (_, h) := h.addLibrary "coroutine" (functionFields Builtin.coroutine)
  let (_, h) := h.addLibrary "table" (functionFields Builtin.table)
  let h := h.addStreams
  let (_, h) := h.addLibrary "os" (functionFields Builtin.os)
  let (strings, h) := h.addLibrary "string" (functionFields Builtin.string)
  let (stringMeta, h) := h.newLibrary (("__index", .table strings) :: functionFields Builtin.stringArith)
  let h := { h with stringMeta := some stringMeta }
  let (_, h) := h.addLibrary "math" (functionFields Builtin.math ++ mathConstants)
  let (_, h) := h.addLibrary "utf8"
    (functionFields Builtin.utf8 ++ [("charpattern", .str Unicode.charPattern)])
  let h := h.addHandleMetas
  h.charge 20000

end NpcDialog.Lua
