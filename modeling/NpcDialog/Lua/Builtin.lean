import NpcDialog.Dialog.Callback

/-!
# Built-in functions

The functions that a program finds in its globals without defining them,
grouped by the table they live in, and the few that programs only meet as
results of others.

* `Builtin` — one constructor for each function.
* `Builtin.libraries` — the tables of functions, with their names.
-/

namespace NpcDialog.Lua

/-- A built-in function. -/
inductive Builtin where
  | assert | collectgarbage | dofile | error | getmetatable | ipairs | ipairsStep | load | loadfile
  | next | pairs | pcall | print | rawequal | rawget | rawlen | rawset | require | select
  | setmetatable | tonumber | tostring | type | warn | xpcall
  | coClose | coCreate | coIsyieldable | coResume | coRunning | coStatus | coWrap | coWrapStep
  | coYield
  | tabConcat | tabInsert | tabMove | tabPack | tabRemove | tabSort | tabUnpack
  | strByte | strChar | strDump | strFind | strFormat | strGmatch | strGmatchStep | strGsub | strLen
  | strLower | strMatch | strPack | strPacksize | strRep | strReverse | strSub | strUnpack | strUpper
  | strArith (event : String)
  | utfChar | utfCodepoint | utfCodes | utfCodesStep (lax : Bool) | utfLen | utfOffset
  | mathAbs | mathAcos | mathAsin | mathAtan | mathCeil | mathCos | mathDeg | mathExp | mathFloor
  | mathFmod | mathLog | mathMax | mathMin | mathModf | mathRad | mathRandom | mathRandomseed
  | mathSin | mathSqrt | mathTan | mathTointeger | mathType | mathUlt
  | ioClose | ioFlush | ioInput | ioLines | ioLinesStep | ioOpen | ioOutput | ioPopen | ioRead
  | ioTmpfile | ioType | ioWrite
  | fileClose | fileFlush | fileLines | fileRead | fileSeek | fileSetvbuf | fileToString | fileWrite
  | osClock | osDate | osDifftime | osExecute | osExit | osGetenv | osRemove | osRename
  | osSetlocale | osTime | osTmpname
  | pkgLoadlib | pkgSearchpath | pkgPreloadSearcher | pkgTextSearcher
  | host (callback : Callback)
  deriving DecidableEq

namespace Builtin

/-- The functions among the globals themselves. -/
def base : List (String × Builtin) :=
  [("assert", assert), ("collectgarbage", collectgarbage), ("dofile", dofile), ("error", error),
    ("getmetatable", getmetatable), ("ipairs", ipairs), ("load", load), ("loadfile", loadfile),
    ("next", next), ("pairs", pairs), ("pcall", pcall), ("print", print), ("rawequal", rawequal),
    ("rawget", rawget), ("rawlen", rawlen), ("rawset", rawset), ("select", select),
    ("setmetatable", setmetatable), ("tonumber", tonumber), ("tostring", tostring), ("type", type),
    ("warn", warn), ("xpcall", xpcall)]

/-- The functions of the table `coroutine`. -/
def coroutine : List (String × Builtin) :=
  [("close", coClose), ("create", coCreate), ("isyieldable", coIsyieldable), ("resume", coResume),
    ("running", coRunning), ("status", coStatus), ("wrap", coWrap), ("yield", coYield)]

/-- The functions of the table `table`. -/
def table : List (String × Builtin) :=
  [("concat", tabConcat), ("insert", tabInsert), ("move", tabMove), ("pack", tabPack),
    ("remove", tabRemove), ("sort", tabSort), ("unpack", tabUnpack)]

/-- The functions of the table `io`. -/
def io : List (String × Builtin) :=
  [("close", ioClose), ("flush", ioFlush), ("input", ioInput), ("lines", ioLines), ("open", ioOpen),
    ("output", ioOutput), ("popen", ioPopen), ("read", ioRead), ("tmpfile", ioTmpfile),
    ("type", ioType), ("write", ioWrite)]

/-- The methods of file handles. -/
def file : List (String × Builtin) :=
  [("close", fileClose), ("flush", fileFlush), ("lines", fileLines), ("read", fileRead),
    ("seek", fileSeek), ("setvbuf", fileSetvbuf), ("write", fileWrite)]

/-- The functions of the table `os`. -/
def os : List (String × Builtin) :=
  [("clock", osClock), ("date", osDate), ("difftime", osDifftime), ("execute", osExecute),
    ("exit", osExit), ("getenv", osGetenv), ("remove", osRemove), ("rename", osRename),
    ("setlocale", osSetlocale), ("time", osTime), ("tmpname", osTmpname)]

/-- The functions of the table `string`. -/
def string : List (String × Builtin) :=
  [("byte", strByte), ("char", strChar), ("dump", strDump), ("find", strFind),
    ("format", strFormat), ("gmatch", strGmatch), ("gsub", strGsub), ("len", strLen),
    ("lower", strLower), ("match", strMatch), ("pack", strPack), ("packsize", strPacksize),
    ("rep", strRep), ("reverse", strReverse), ("sub", strSub), ("unpack", strUnpack),
    ("upper", strUpper)]

/-- The arithmetic that strings take part in. -/
def stringArith : List (String × Builtin) :=
  ["add", "sub", "mul", "mod", "pow", "div", "idiv", "unm"].map fun e => ("__" ++ e, strArith e)

/-- The functions of the table `utf8`. -/
def utf8 : List (String × Builtin) :=
  [("char", utfChar), ("codepoint", utfCodepoint), ("codes", utfCodes), ("len", utfLen),
    ("offset", utfOffset)]

/-- The functions of the table `math`. -/
def math : List (String × Builtin) :=
  [("abs", mathAbs), ("acos", mathAcos), ("asin", mathAsin), ("atan", mathAtan),
    ("ceil", mathCeil), ("cos", mathCos), ("deg", mathDeg), ("exp", mathExp),
    ("floor", mathFloor), ("fmod", mathFmod), ("log", mathLog), ("max", mathMax),
    ("min", mathMin), ("modf", mathModf), ("rad", mathRad), ("random", mathRandom),
    ("randomseed", mathRandomseed), ("sin", mathSin), ("sqrt", mathSqrt), ("tan", mathTan),
    ("tointeger", mathTointeger), ("type", mathType), ("ult", mathUlt)]

end Builtin

end NpcDialog.Lua
