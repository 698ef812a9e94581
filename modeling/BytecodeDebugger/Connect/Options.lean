import BytecodeDebugger.Json.Parse
import BytecodeDebugger.Json.Shape
import BytecodeDebugger.Text.Fold

/-!
# Connection options

Where a debugger listens or a front end connects to: a TCP port of a host, or a pipe at a path. The
options are kept as a JSON record whose fields may all be left out.

Main fact: `ofString?_name` (a kind is known by its name).
-/

namespace BytecodeDebugger

/-- What kind of stream connects a debugger and its front end. -/
inductive TransportKind where
  | tcp
  /-- A socket file on the same host. -/
  | pipe
  deriving DecidableEq, Repr

namespace TransportKind

/-- The kinds. -/
def all : List TransportKind := [.tcp, .pipe]

/-- The name of a kind. -/
def name : TransportKind → String
  | .tcp => "tcp"
  | .pipe => "pipe"

/-- The kind of a name. -/
def ofName? (name : String) : Option TransportKind := all.find? fun k => k.name == name

/-- The kind that a user names, in any letter case. -/
def ofString? (text : String) : Option TransportKind :=
  match Text.foldCase text with
  | "tcp" => some .tcp
  | "socket" => some .tcp
  | "pipe" => some .pipe
  | "unix" => some .pipe
  | _ => none

/-- What is said about a name that is no kind. -/
def unknownMessage (text : String) : String := "Unknown transport: " ++ text

/-- A kind is known by its name. -/
@[simp] theorem ofString?_name (k : TransportKind) : ofString? k.name = some k := by
  cases k <;> decide +kernel

end TransportKind

/-- The number of ports. -/
def portLimit : Nat := 0x10000

/-- Where to listen or to connect to. -/
structure ConnectionOptions where
  kind : TransportKind
  host : String
  port : Nat
  socketPath : Option String
  deriving DecidableEq, Repr

namespace ConnectionOptions

/-- A TCP port of this host. -/
def initial : ConnectionOptions := ⟨.tcp, "127.0.0.1", 1027, none⟩

instance : Inhabited ConnectionOptions := ⟨initial⟩

/-- The endpoint in messages. -/
def endpoint (o : ConnectionOptions) : String :=
  match o.kind with
  | .tcp => o.host ++ ":" ++ toString o.port
  | .pipe => o.socketPath.getD "<no socket path>"

/-- The document of the options. -/
def toJson (o : ConnectionOptions) : Json :=
  .object
    [("io", .string o.kind.name), ("host", .string o.host), ("port", .nat o.port),
      ("socket_path", .option .string o.socketPath)]

/-- The options of a document. -/
def ofJson? (j : Json) : Option ConnectionOptions :=
  match j.fields? ["io", "host", "port", "socket_path"] with
  | some [kind, host, port, socketPath] => do
    let ofName := fun j => (Json.plainName? j).bind TransportKind.ofName?
    return {
      kind := ← Json.withDefault initial.kind ofName kind
      host := ← Json.withDefault initial.host Json.string? host
      port := ← Json.withDefault initial.port (Json.nat? portLimit) port
      socketPath := ← Json.withDefault none (Json.option? Json.string?) socketPath }
  | _ => none

/-- The options of a text. -/
def ofText? (text : String) : Option ConnectionOptions := (Json.parse? text).bind ofJson?

end ConnectionOptions

end BytecodeDebugger
