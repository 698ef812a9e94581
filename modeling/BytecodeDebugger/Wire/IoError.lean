/-!
# Failures of input and output

What can go wrong below the frames: a failure has a class, by which a reader decides whether to try
again, and a wording.
-/

namespace BytecodeDebugger

/-- The class of a failure. -/
inductive IoKind where
  | interrupted
  | connectionReset
  | connectionRefused
  | brokenPipe
  | writeZero
  | invalidData
  | invalidInput
  | notFound
  | notADirectory
  | permissionDenied
  | addressInUse
  | addressNotAvailable
  | networkUnreachable
  | other
  deriving DecidableEq, Repr

/-- A failure of input or output. -/
structure IoError where
  kind : IoKind
  message : String
  deriving DecidableEq, Repr

namespace IoError

/-- A writer that takes no more bytes. -/
def writeZero : IoError := ⟨.writeZero, "failed to write whole buffer"⟩

/-- Bytes that spell no text. -/
def notUtf8 : IoError := ⟨.invalidData, "stream did not contain valid UTF-8"⟩

/-- Writing to a stream that nobody reads any more. -/
def brokenPipe : IoError := ⟨.brokenPipe, "Broken pipe (os error 32)"⟩

/-- A stream whose other end was given up before all was read there. -/
def connectionReset : IoError := ⟨.connectionReset, "Connection reset by peer (os error 104)"⟩

/-- A file that does not exist. -/
def noSuchFile : IoError := ⟨.notFound, "No such file or directory (os error 2)"⟩

/-- A path that goes on below something that is no directory. -/
def notADirectory : IoError := ⟨.notADirectory, "Not a directory (os error 20)"⟩

/-- A call that the caller may not make. -/
def permissionDenied : IoError := ⟨.permissionDenied, "Permission denied (os error 13)"⟩

/-- An argument that makes no sense. -/
def invalidArgument : IoError := ⟨.invalidInput, "Invalid argument (os error 22)"⟩

/-- A file that nobody listens on. -/
def connectionRefused : IoError := ⟨.connectionRefused, "Connection refused (os error 111)"⟩

/-- An address that is taken. -/
def addressInUse : IoError := ⟨.addressInUse, "Address already in use (os error 98)"⟩

/-- An address that the host does not have. -/
def addressNotAvailable : IoError :=
  ⟨.addressNotAvailable, "Cannot assign requested address (os error 99)"⟩

/-- An address without a route to it. -/
def networkUnreachable : IoError := ⟨.networkUnreachable, "Network is unreachable (os error 101)"⟩

/-- A zone that the host does not have. -/
def noSuchDevice : IoError := ⟨.other, "No such device (os error 19)"⟩

/-- A name that no host has, or that is none. -/
def nameUnknown : IoError :=
  ⟨.other, "failed to lookup address information: Name or service not known"⟩

/-- A name that nobody could be asked about. -/
def nameUnanswered : IoError :=
  ⟨.other, "failed to lookup address information: Temporary failure in name resolution"⟩

/-- A name that holds a zero byte. -/
def nameWithZero : IoError := ⟨.invalidInput, "file name contained an unexpected NUL byte"⟩

/-- A path that does not fit a socket address. -/
def pathTooLong : IoError := ⟨.invalidInput, "path must be shorter than SUN_LEN"⟩

/-- A path that holds a zero byte. -/
def pathWithZero : IoError := ⟨.invalidInput, "paths must not contain interior null bytes"⟩

/-- A pipe without a path. -/
def needsSocketPath : IoError := ⟨.invalidInput, "pipe transport needs a socket path"⟩

/-- Whether the failed call is to be repeated. -/
def isInterrupted (e : IoError) : Bool := e.kind == .interrupted

/-- Whether the failure says that the peer has gone. -/
def isDisconnect (e : IoError) : Bool := e.kind == .connectionReset || e.kind == .brokenPipe

end IoError

end BytecodeDebugger
