import Stencil.Lua.Library.Basic
import Stencil.Lua.Library.Coroutines
import Stencil.Lua.Library.Engine
import Stencil.Lua.Library.Files
import Stencil.Lua.Library.Mathematics
import Stencil.Lua.Library.Os
import Stencil.Lua.Library.Packages
import Stencil.Lua.Library.Packing
import Stencil.Lua.Library.Sequences
import Stencil.Lua.Library.Strings
import Stencil.Lua.Library.Unicode

/-!
# Library functions applied to arguments

* `Builtin.apply`, `Native.apply`: the results of a library function;
* `Store.initial`: a store with all libraries.
-/

namespace Stencil.Lua

/-- The results of a library function. -/
def Builtin.apply (b : Builtin) (vs : List Value) : Run (List Value) :=
  match b with
  | .assert => Basic.assert vs
  | .collectgarbage => Basic.collectgarbage vs
  | .dofile => Basic.dofile vs
  | .error => Basic.error vs
  | .getmetatable => Basic.getmetatable vs
  | .ipairs => Basic.ipairs vs
  | .ipairsStep => Basic.ipairsStep vs
  | .load => Basic.load vs
  | .loadfile => Basic.loadfile vs
  | .next => Basic.next vs
  | .pairs => Basic.pairs vs
  | .pcall => Basic.pcall vs
  | .rawequal => Basic.rawequal vs
  | .rawget => Basic.rawget vs
  | .rawlen => Basic.rawlen vs
  | .rawset => Basic.rawset vs
  | .require => Packages.require vs
  | .select => Basic.select vs
  | .setmetatable => Basic.setmetatable vs
  | .tonumber => Basic.tonumber vs
  | .tostring => Basic.tostring vs
  | .type => Basic.type vs
  | .warn => Basic.warn vs
  | .xpcall => Basic.xpcall vs
  | .print => Engine.print vs
  | .write => Engine.write vs
  | .writeln => Engine.writeln vs
  | .host => Engine.host vs
  | .hostIndex => Engine.hostIndex vs
  | .hostResolve => Engine.hostResolve vs
  | .hostText => Engine.hostText vs
  | .failureText => Engine.failureText vs
  | .stringByte => Strings.byte vs
  | .stringChar => Strings.char vs
  | .stringDump => Strings.dump vs
  | .stringFind => Strings.findOrMatch true vs
  | .stringFormat => Strings.format vs
  | .stringGmatch => Strings.gmatch vs
  | .stringGsub => Strings.gsub vs
  | .stringLen => Strings.len vs
  | .stringLower => Strings.mapBytes Strings.lowerByte vs
  | .stringMatch => Strings.findOrMatch false vs
  | .stringPack => Packing.pack vs
  | .stringPacksize => Packing.packsize vs
  | .stringRep => Strings.rep vs
  | .stringReverse => Strings.reverse vs
  | .stringSub => Strings.sub vs
  | .stringUnpack => Packing.unpack vs
  | .stringUpper => Strings.mapBytes Strings.upperByte vs
  | .stringAdd => Strings.operator .add "add" vs
  | .stringSubtract => Strings.operator .sub "sub" vs
  | .stringMul => Strings.operator .mul "mul" vs
  | .stringMod => Strings.operator .mod "mod" vs
  | .stringPow => Strings.operator .pow "pow" vs
  | .stringDiv => Strings.operator .div "div" vs
  | .stringIdiv => Strings.operator .idiv "idiv" vs
  | .stringUnm => Strings.negative vs
  | .tableConcat => Sequences.concat vs
  | .tableInsert => Sequences.insert vs
  | .tableMove => Sequences.move vs
  | .tablePack => Sequences.pack vs
  | .tableRemove => Sequences.remove vs
  | .tableSort => Sequences.sort vs
  | .tableUnpack => Sequences.unpack vs
  | .mathAbs => Mathematics.abs vs
  | .mathAcos => Mathematics.onFloat Float.acos vs
  | .mathAsin => Mathematics.onFloat Float.asin vs
  | .mathAtan => Mathematics.atan vs
  | .mathCeil => Mathematics.rounded Float.ceil vs
  | .mathCos => Mathematics.onFloat Float.cos vs
  | .mathDeg => Mathematics.onFloat (fun x => x * (180.0 / Mathematics.pi)) vs
  | .mathExp => Mathematics.onFloat Float.exp vs
  | .mathFloor => Mathematics.rounded Float.floor vs
  | .mathFmod => Mathematics.fmod vs
  | .mathLog => Mathematics.log vs
  | .mathMax => Mathematics.max vs
  | .mathMin => Mathematics.min vs
  | .mathModf => Mathematics.modf vs
  | .mathRad => Mathematics.onFloat (fun x => x * (Mathematics.pi / 180.0)) vs
  | .mathRandom => Mathematics.random vs
  | .mathRandomseed => Mathematics.randomseed vs
  | .mathSin => Mathematics.onFloat Float.sin vs
  | .mathSqrt => Mathematics.onFloat Float.sqrt vs
  | .mathTan => Mathematics.onFloat Float.tan vs
  | .mathTointeger => Mathematics.tointeger vs
  | .mathType => Mathematics.type vs
  | .mathUlt => Mathematics.ult vs
  | .utf8Char => Unicode.char vs
  | .utf8Codepoint => Unicode.codepoint vs
  | .utf8Codes => Unicode.codes vs
  | .utf8CodesStep => Unicode.codesStep true vs
  | .utf8CodesStepLax => Unicode.codesStep false vs
  | .utf8Len => Unicode.len vs
  | .utf8Offset => Unicode.offset vs
  | .coroutineClose => Coroutines.close vs
  | .coroutineCreate => Coroutines.create vs
  | .coroutineIsyieldable => Coroutines.isyieldable vs
  | .coroutineResume => Coroutines.resume vs
  | .coroutineRunning => Coroutines.running vs
  | .coroutineStatus => Coroutines.status vs
  | .coroutineWrap => Coroutines.wrap vs
  | .coroutineYield => Coroutines.yield vs
  | .packageLoadlib => Engine.loadlib vs
  | .packageSearchpath => Packages.searchpath vs
  | .searchPreload => Packages.searchPreload vs
  | .searchLua => Packages.searchLua vs
  | .searchNative => Packages.searchNative vs
  | .ioClose => Files.closeAny vs
  | .ioFlush => Files.flushOutput vs
  | .ioInput => Files.input vs
  | .ioLines => Files.linesOf vs
  | .ioOpen => Files.openPath vs
  | .ioOutput => Files.output vs
  | .ioPopen => Files.openProgram vs
  | .ioRead => Files.readInput vs
  | .ioTmpfile => Files.openTemporary vs
  | .ioType => Files.type vs
  | .ioWrite => Files.writeOutput vs
  | .fileClose => Files.close vs
  | .fileFlush => Files.flush vs
  | .fileLines => Files.lines vs
  | .fileRead => Files.read vs
  | .fileSeek => Files.seek vs
  | .fileSetvbuf => Files.setvbuf vs
  | .fileWrite => Files.write vs
  | .fileText => Files.text vs
  | .fileScope => Files.closeScope vs
  | .osClock => Os.clock vs
  | .osDate => Os.date vs
  | .osDifftime => Os.difftime vs
  | .osExecute => Os.execute vs
  | .osExit => Os.exit vs
  | .osGetenv => Os.getenv vs
  | .osRemove => Os.remove vs
  | .osRename => Os.rename vs
  | .osSetlocale => Os.setlocale vs
  | .osTime => Os.time vs
  | .osTmpname => Os.tmpname vs

/-- The results of a library function with a state. -/
def Native.apply (n : Native) (place : Nat) (vs : List Value) : Run (List Value) :=
  match n with
  | .matches s p position lastEnd => Strings.gmatchStep place s p position lastEnd
  | .wrapped t => Coroutines.wrapStep t vs
  | .readLines file formats closing => Files.linesStep file formats closing

/-! ## The initial store -/

/-- A table of library functions under their names. -/
def tableOf (functions : List (String × Builtin)) : Table :=
  functions.foldl (fun t f => t.set (.text f.1) (.builtin f.2)) (Table.empty 0 functions.length)

/-- A table with more fields. -/
def withFields (t : Table) (fields : List (String × Value)) : Table :=
  fields.foldl (fun t f => t.set (.text f.1) f.2) t

namespace Store

/-- The fields of library tables that are no functions. -/
def constants : List (String × List (String × Value)) :=
  [("math", [("pi", .float Mathematics.pi), ("huge", .float (1.0 / 0.0)),
      ("maxinteger", .int Int64.maxValue), ("mininteger", .int Int64.minValue)]),
    ("utf8", [("charpattern", .string Unicode.charPattern)]),
    ("io", [("stdin", .object 0), ("stdout", .object 1), ("stderr", .object 2)]),
    ("package", [("loaded", .table loaded), ("preload", .table preload),
      ("searchers", .table searchers), ("path", .text Packages.defaultPath),
      ("cpath", .text "/usr/local/lib/lua/5.4/?.so;/usr/local/lib/lua/5.4/loadall.so;./?.so"),
      ("config", .text "/\n;\n?\n!\n-\n")])]

/-- The places of library tables: those that every store has at a place of their own, and the
others after them. -/
def libraryPlaces : List (String × Nat) :=
  [("package", package), ("string", 9), ("table", 10), ("math", 11), ("utf8", 12),
    ("coroutine", 13), ("io", 14), ("os", 15)]

/-- The table of a library. -/
def libraryTable (name : String) : Table :=
  let functions := ((Builtin.libraries.find? fun l => l.1 == name).map Prod.snd).getD []
  let more := ((constants.find? fun c => c.1 == name).map Prod.snd).getD []
  withFields (tableOf functions) more

/-- The table of globals. `t4` stands for the functions of the engine. -/
def globalTable : Table :=
  let libraries := libraryPlaces.map fun l => (l.1, Value.table l.2)
  withFields (tableOf Builtin.basic)
    (libraries ++
      [("_G", .table globals), ("_VERSION", .text "Lua 5.4"), ("print", .builtin .print),
        ("write", .builtin .write), ("writeln", .builtin .writeln), ("t4", .table 16)])

/-- The table of loaded packages. -/
def loadedTable : Table :=
  withFields (Table.empty 0 9)
    (("_G", .table globals) :: libraryPlaces.map fun l => (l.1, Value.table l.2))

/-- The table of the functions of the engine. -/
def engineTable : Table :=
  withFields (Table.empty 0 3)
    [("version", .text "0.1.0"), ("host", .builtin .host), ("write", .builtin .write)]

/-- The tables of a new store, in the order of their places. -/
def initialTables : Array Table :=
  #[globalTable, loadedTable,
    withFields (tableOf Builtin.stringOperators) [("__index", .table 9)],
    withFields (Table.empty 0 4)
      [("__name", .text Engine.hostTypeName), ("__metatable", .bool false),
        ("__index", .builtin .hostIndex), ("__tostring", .builtin .hostText)],
    withFields (Table.empty 0 2)
      [("__metatable", .bool false), ("__tostring", .builtin .failureText)],
    withFields (Table.empty 0 4)
      [("__name", .text "FILE*"), ("__index", .table 17), ("__tostring", .builtin .fileText),
        ("__close", .builtin .fileScope), ("__gc", .builtin .fileScope)],
    libraryTable "package", Table.empty 0 0,
    Table.ofList [.builtin .searchPreload, .builtin .searchLua, .builtin .searchNative] 0,
    libraryTable "string", libraryTable "table", libraryTable "math", libraryTable "utf8",
    libraryTable "coroutine", libraryTable "io", libraryTable "os", engineTable,
    tableOf Builtin.file]

/-- One of the files that a program starts with. -/
def standardFile (writable : Bool) : HostObject :=
  .file ⟨ByteArray.empty, 0, false, writable, true⟩

/-- A store with all libraries and no program yet. -/
def initial (system : System) (files : FileSystem) : Store where
  cells := #[]
  tables := initialTables
  closures := #[]
  natives := #[]
  objects := #[standardFile false, standardFile true, standardFile true]
  output := ByteArray.empty
  files := files
  input := .object 0
  outlet := .object 1
  system := system
  asked := []

end Store

end Stencil.Lua
