import BytecodeDebugger.Connect.Error
import BytecodeDebugger.Connect.Host
import BytecodeDebugger.Connect.Options
import BytecodeDebugger.Connect.Transport
import BytecodeDebugger.Text.Quoted

/-!
# Endpoints

What connection options come to. A debugger listens at once, and so learns at once if it cannot; a
front end reaches out when its transport is opened.

Main facts: `Unanswered.ofOptions_pipe_none` (a pipe needs a path) and
`Unanswered.fault?_of_ofOptions` (a debugger listens only where nothing is in the way).
-/

namespace BytecodeDebugger

/-- Which end of a session is played. -/
inductive Side where
  /-- The debugger, which listens. -/
  | server
  /-- The front end, which reaches out. -/
  | client
  deriving DecidableEq, Repr

/-- Somewhere to listen or to reach out to. -/
inductive Endpoint where
  | tcp (address : IpAddress) (port : Nat)
  | pipe (path : String)
  deriving DecidableEq, Repr

namespace Endpoint

/-- How an endpoint is shown. -/
def shown : Endpoint → String
  | .tcp address port => address.withPort port
  | .pipe path => path

/-- How a transport to the endpoint describes itself. -/
def describe (e : Endpoint) : String :=
  match e with
  | .tcp _ _ => "tcp " ++ e.shown
  | .pipe _ => "pipe " ++ e.shown

/-- Why an endpoint cannot be listened on. -/
def fault? (host : Host) : Endpoint → Option IoError
  | .tcp address port => host.addressFault? address port
  | .pipe path => host.socketFault? path

/-- Why an endpoint where nobody listens cannot be reached. -/
def silence (host : Host) : Endpoint → IoError
  | .tcp address _ => Host.addressSilence address
  | .pipe path => host.socketSilence path

/-- The endpoint as it is shown by whoever listens there, which is in no zone. -/
def listening : Endpoint → Endpoint
  | .tcp address port => .tcp (address.inZone 0) port
  | .pipe path => .pipe path

/-- Nothing is in the way where it is listened. -/
theorem fault?_listening {host : Host} {e : Endpoint} (h : e.fault? host = none) :
    e.listening.fault? host = none := by
  cases e with
  | tcp address port => exact Host.addressFault?_inZone 0 h
  | pipe path => exact h

/-- The endpoint of options, for a host. -/
def ofOptions (host : Host) (o : ConnectionOptions) : Except IoError Endpoint :=
  match o.kind with
  | .tcp => (host.resolve o.host).map (.tcp · o.port)
  | .pipe =>
    match o.socketPath with
    | some path => .ok (.pipe path)
    | none => .error .needsSocketPath

end Endpoint

/-- The endpoint in messages of one side. A debugger shows a host as it was given, with the port. -/
def ConnectionOptions.endpointOf (side : Side) (o : ConnectionOptions) : String :=
  match side, o.kind with
  | .server, .tcp => "(" ++ Text.quoted o.host ++ ", " ++ toString o.port ++ ")"
  | _, _ => o.endpoint

/-- An endpoint as a host sees it, where nobody answers. -/
structure Unanswered where
  host : Host
  endpoint : Endpoint

namespace Unanswered

/-- The endpoint of options for one side; a debugger starts to listen. -/
def ofOptions (host : Host) (side : Side) (o : ConnectionOptions) :
    Except ConnectError Unanswered :=
  match Endpoint.ofOptions host o with
  | .error fault => .error (.unavailable (o.endpointOf side) fault)
  | .ok e =>
    match side with
    | .client => .ok ⟨host, e⟩
    | .server =>
      match e.fault? host with
      | none => .ok ⟨host, e.listening⟩
      | some fault => .error (.unavailable (o.endpointOf side) fault)

/-- A transport to an endpoint that nobody answers at. -/
instance : Transport Unanswered where
  establish u := (.error (.unavailable u.endpoint.shown (u.endpoint.silence u.host)), u)
  send _ u := (.error .notConnected, u)
  receive u := (.error .notConnected, u)
  release u := u
  describe u := u.endpoint.describe
  backlog _ := 0

/-- A pipe needs a path. -/
theorem ofOptions_pipe_none (host : Host) (side : Side) {o : ConnectionOptions}
    (hk : o.kind = .pipe) (hp : o.socketPath = none) :
    ofOptions host side o = .error (.unavailable "<no socket path>" .needsSocketPath) := by
  simp [ofOptions, Endpoint.ofOptions, ConnectionOptions.endpointOf, ConnectionOptions.endpoint, hk,
    hp]

/-- A debugger listens only where nothing is in the way. -/
theorem fault?_of_ofOptions {host : Host} {o : ConnectionOptions} {u : Unanswered}
    (h : ofOptions host .server o = .ok u) : u.endpoint.fault? u.host = none := by
  unfold ofOptions at h
  split at h
  · simp at h
  · simp only at h
    split at h
    · next hf =>
      cases h
      exact Endpoint.fault?_listening hf
    · simp at h

end Unanswered

end BytecodeDebugger
