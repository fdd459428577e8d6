/-!
# Library functions

The functions that a Lua program finds in its environment, by name.
-/

namespace Stencil.Lua

/-- A library function. -/
inductive Builtin where
  -- basic functions
  | assert | collectgarbage | dofile | error | getmetatable | ipairs | ipairsStep | load
  | loadfile | next | pairs | pcall | rawequal | rawget | rawlen | rawset | require | select
  | setmetatable | tonumber | tostring | type | warn | xpcall
  -- functions of the engine
  | print | write | writeln | host | hostIndex | hostResolve | hostText | failureText
  -- strings
  | stringByte | stringChar | stringDump | stringFind | stringFormat | stringGmatch | stringGsub
  | stringLen | stringLower | stringMatch | stringPack | stringPacksize | stringRep
  | stringReverse | stringSub | stringUnpack | stringUpper
  | stringAdd | stringSubtract | stringMul | stringMod | stringPow | stringDiv | stringIdiv
  | stringUnm
  -- tables
  | tableConcat | tableInsert | tableMove | tablePack | tableRemove | tableSort | tableUnpack
  -- mathematics
  | mathAbs | mathAcos | mathAsin | mathAtan | mathCeil | mathCos | mathDeg | mathExp | mathFloor
  | mathFmod | mathLog | mathMax | mathMin | mathModf | mathRad | mathRandom | mathRandomseed
  | mathSin | mathSqrt | mathTan | mathTointeger | mathType | mathUlt
  -- UTF-8
  | utf8Char | utf8Codepoint | utf8Codes | utf8CodesStep | utf8CodesStepLax | utf8Len
  | utf8Offset
  -- coroutines
  | coroutineClose | coroutineCreate | coroutineIsyieldable | coroutineResume | coroutineRunning
  | coroutineStatus | coroutineWrap | coroutineYield
  -- packages
  | packageLoadlib | packageSearchpath | searchPreload | searchLua | searchNative
  -- input and output
  | ioClose | ioFlush | ioInput | ioLines | ioOpen | ioOutput | ioPopen | ioRead | ioTmpfile
  | ioType | ioWrite | fileClose | fileFlush | fileLines | fileRead | fileSeek | fileSetvbuf
  | fileWrite | fileText | fileScope
  -- the system
  | osClock | osDate | osDifftime | osExecute | osExit | osGetenv | osRemove | osRename
  | osSetlocale | osTime | osTmpname
  deriving Repr, BEq, DecidableEq, Hashable, Inhabited

namespace Builtin

/-- The functions that stand in the global table under their own names. -/
def basic : List (String × Builtin) :=
  [("assert", .assert), ("collectgarbage", .collectgarbage), ("dofile", .dofile),
    ("error", .error), ("getmetatable", .getmetatable), ("ipairs", .ipairs), ("load", .load),
    ("loadfile", .loadfile), ("next", .next), ("pairs", .pairs), ("pcall", .pcall),
    ("rawequal", .rawequal), ("rawget", .rawget), ("rawlen", .rawlen), ("rawset", .rawset),
    ("require", .require), ("select", .select), ("setmetatable", .setmetatable),
    ("tonumber", .tonumber), ("tostring", .tostring), ("type", .type), ("warn", .warn),
    ("xpcall", .xpcall)]

/-- The functions of the library `string`. -/
def string : List (String × Builtin) :=
  [("byte", .stringByte), ("char", .stringChar), ("dump", .stringDump), ("find", .stringFind),
    ("format", .stringFormat), ("gmatch", .stringGmatch), ("gsub", .stringGsub),
    ("len", .stringLen), ("lower", .stringLower), ("match", .stringMatch), ("pack", .stringPack),
    ("packsize", .stringPacksize), ("rep", .stringRep), ("reverse", .stringReverse),
    ("sub", .stringSub), ("unpack", .stringUnpack), ("upper", .stringUpper)]

/-- The operators of strings. -/
def stringOperators : List (String × Builtin) :=
  [("__add", .stringAdd), ("__sub", .stringSubtract), ("__mul", .stringMul),
    ("__mod", .stringMod), ("__pow", .stringPow), ("__div", .stringDiv),
    ("__idiv", .stringIdiv), ("__unm", .stringUnm)]

/-- The functions of the library `table`. -/
def table : List (String × Builtin) :=
  [("concat", .tableConcat), ("insert", .tableInsert), ("move", .tableMove), ("pack", .tablePack),
    ("remove", .tableRemove), ("sort", .tableSort), ("unpack", .tableUnpack)]

/-- The functions of the library `math`. -/
def math : List (String × Builtin) :=
  [("abs", .mathAbs), ("acos", .mathAcos), ("asin", .mathAsin), ("atan", .mathAtan),
    ("ceil", .mathCeil), ("cos", .mathCos), ("deg", .mathDeg), ("exp", .mathExp),
    ("floor", .mathFloor), ("fmod", .mathFmod), ("log", .mathLog), ("max", .mathMax),
    ("min", .mathMin), ("modf", .mathModf), ("rad", .mathRad), ("random", .mathRandom),
    ("randomseed", .mathRandomseed), ("sin", .mathSin), ("sqrt", .mathSqrt), ("tan", .mathTan),
    ("tointeger", .mathTointeger), ("type", .mathType), ("ult", .mathUlt)]

/-- The functions of the library `utf8`. -/
def utf8 : List (String × Builtin) :=
  [("char", .utf8Char), ("codepoint", .utf8Codepoint), ("codes", .utf8Codes), ("len", .utf8Len),
    ("offset", .utf8Offset)]

/-- The functions of the library `coroutine`. -/
def coroutine : List (String × Builtin) :=
  [("close", .coroutineClose), ("create", .coroutineCreate),
    ("isyieldable", .coroutineIsyieldable), ("resume", .coroutineResume),
    ("running", .coroutineRunning), ("status", .coroutineStatus), ("wrap", .coroutineWrap),
    ("yield", .coroutineYield)]

/-- The functions of the library `io`. -/
def io : List (String × Builtin) :=
  [("close", .ioClose), ("flush", .ioFlush), ("input", .ioInput), ("lines", .ioLines),
    ("open", .ioOpen), ("output", .ioOutput), ("popen", .ioPopen), ("read", .ioRead),
    ("tmpfile", .ioTmpfile), ("type", .ioType), ("write", .ioWrite)]

/-- The methods of files. -/
def file : List (String × Builtin) :=
  [("close", .fileClose), ("flush", .fileFlush), ("lines", .fileLines), ("read", .fileRead),
    ("seek", .fileSeek), ("setvbuf", .fileSetvbuf), ("write", .fileWrite)]

/-- The functions of the library `os`. -/
def os : List (String × Builtin) :=
  [("clock", .osClock), ("date", .osDate), ("difftime", .osDifftime), ("execute", .osExecute),
    ("exit", .osExit), ("getenv", .osGetenv), ("remove", .osRemove), ("rename", .osRename),
    ("setlocale", .osSetlocale), ("time", .osTime), ("tmpname", .osTmpname)]

/-- The functions of the library `package`. -/
def package : List (String × Builtin) :=
  [("loadlib", .packageLoadlib), ("searchpath", .packageSearchpath)]

/-- The functions of each library, under the name of the library. -/
def libraries : List (String × List (String × Builtin)) :=
  [("string", string), ("table", table), ("math", math), ("utf8", utf8),
    ("coroutine", coroutine), ("io", io), ("os", os), ("package", package)]

/-- The name under which a message knows a library function that was called without one. -/
def fullName (b : Builtin) : Option String :=
  match basic.find? fun f => f.2 == b with
  | some (name, _) => some name
  | none =>
    libraries.findSome? fun (lib, functions) =>
      (functions.find? fun f => f.2 == b).map fun f => lib ++ "." ++ f.1

end Builtin

end Stencil.Lua
