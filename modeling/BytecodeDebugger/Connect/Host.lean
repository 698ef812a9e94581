import BytecodeDebugger.Connect.FileTree
import BytecodeDebugger.Connect.HostName
import BytecodeDebugger.Text.Fold

/-!
# What a host allows

A host has files and a directory at hand, and knows some zones and names, but it has no network. A
pipe is listened on at a path that is free in a directory that exists; the empty path stands for a
nameless pipe. Ports below 1024 are reserved. Nobody answers anywhere.

Main facts: `pathFault?_eq_none` (which paths fit a socket address), `socketFault?_empty` (the
nameless pipe is always free) and `resolve_of_parse?` (an address is not looked up).
-/

namespace BytecodeDebugger

/-- The number of bytes of a path in a socket address, its end included. -/
def socketPathLimit : Nat := 108

/-- The lowest port that is not reserved. -/
def firstOpenPort : Nat := 1024

/-- What keeps a path out of a socket address: a zero byte ends it early, and it has to be short. -/
def pathFault? (path : String) : Option IoError :=
  if path.toList.contains '\x00' then some .pathWithZero
  else if socketPathLimit ≤ path.utf8ByteSize then some .pathTooLong
  else none

/-- A path fits a socket address if it has no zero byte and is short enough. -/
theorem pathFault?_eq_none {path : String} :
    pathFault? path = none ↔ '\x00' ∉ path.toList ∧ path.utf8ByteSize < socketPathLimit := by
  unfold pathFault?
  split
  · simp_all
  · split <;> simp_all

/-- A host without a network. -/
structure Host where
  root : FileTree
  /-- The names from the root to the directory at hand. -/
  here : List String
  /-- The zones with their numbers. -/
  zones : List (String × Nat)
  /-- The names that are known without asking anybody. -/
  names : List (String × IpAddress)

namespace Host

open IpAddress

/-- A host with the usual directories and devices, and an empty directory at hand. It knows itself
only. -/
def ordinary : Host :=
  let plain (name : String) := (name, FileTree.plain)
  let empty (name : String) := (name, FileTree.directory [])
  let devices := ["full", "null", "random", "tty", "urandom", "zero"].map plain
  let tables := ["group", "hosts", "passwd"].map plain
  let others :=
    ["bin", "home", "lib", "mnt", "opt", "proc", "root", "run", "sbin", "srv", "sys", "tmp", "usr",
      "work"].map empty
  ⟨.directory
      (("dev", .directory (empty "shm" :: devices)) :: ("etc", .directory tables) ::
        ("var", .directory (["lib", "log", "tmp"].map empty)) :: others),
    ["work"], [("lo", 1)], [("localhost", .v4 [127, 0, 0, 1])]⟩

/-! ## Files -/

/-- Where the walk along a path starts. -/
def startOf (host : Host) (path : String) : Except IoError (List FileTree) :=
  if FileTree.isAbsolute path then .ok [host.root] else FileTree.walk host.here [host.root]

/-- The place that a path leads to. -/
def place (host : Host) (path : String) : Except IoError (List FileTree) :=
  (host.startOf path).bind (FileTree.walk (FileTree.names path))

/-- Why no socket file can be made at a path. What is there already is in the way, and nothing can
be made below a directory that does not exist. -/
def fileFault? (host : Host) (path : String) : Option IoError :=
  let names := (FileTree.names path).reverse.dropWhile (· == "")
  match names with
  | [] => some .addressInUse
  | last :: front =>
    match (host.startOf path).bind (FileTree.walk front.reverse) with
    | .error e => some e
    | .ok directory =>
      match FileTree.step last directory with
      | .ok _ => some .addressInUse
      | .error e =>
        if e = .noSuchFile ∧ (FileTree.names path).getLast? ≠ some "" then none else some e

/-- Why a path cannot be listened on. -/
def socketFault? (host : Host) (path : String) : Option IoError :=
  (pathFault? path).or (if path = "" then none else host.fileFault? path)

/-- Why the path of a pipe cannot be reached: nothing is there, or something that nobody listens on.
-/
def socketSilence (host : Host) (path : String) : IoError :=
  (pathFault? path).getD <|
    if path = "" then .invalidArgument
    else
      match host.place path with
      | .ok _ => .connectionRefused
      | .error e => e

/-! ## Names -/

/-- The number of a zone, which can be given by its name if the address has no meaning elsewhere. -/
def zoneNumber? (host : Host) (address : IpAddress) (zone : List Char) : Option Nat :=
  let named :=
    if address.isZonal then (host.zones.find? fun z => z.1.toList = zone).map Prod.snd else none
  named.or <|
    match HostName.numberIn? 10 zone with
    | some (n, []) => if n < 0x100000000 then some n else none
    | _ => none

/-- An address of eight groups with a zone behind it. -/
def zoned? (host : Host) (cs : List Char) : Option IpAddress :=
  match cs.dropWhile (· ≠ '%') with
  | [] => none
  | _ :: zone =>
    (IpAddress.parse6? (cs.takeWhile (· ≠ '%'))).bind fun address =>
      (host.zoneNumber? address zone).map (IpAddress.inZone · address)

/-- The address that a name is known to have. -/
def known? (host : Host) (name : String) : Option IpAddress :=
  (Text.choose Prod.fst host.names true name).map Prod.snd

/-- The address that a name stands for, as far as the host can tell. -/
def address? (host : Host) (name : String) : Option IpAddress :=
  (((parse? name).or ((HostName.short? 4 name.toList).map v4)).or (host.zoned? name.toList)).or
    (host.known? name)

/-- Why a name has no address: nobody can be asked about it, or it is none. -/
def nameFault (name : String) : IoError :=
  if name.toList.contains '\x00' then .nameWithZero
  else if HostName.isLookedUp name then .nameUnanswered
  else .nameUnknown

/-- The address that a name stands for. -/
def resolve (host : Host) (name : String) : Except IoError IpAddress :=
  (host.address? name).elim (.error (nameFault name)) .ok

/-- An address is not looked up. -/
theorem resolve_of_parse? (host : Host) {name : String} {address : IpAddress}
    (h : parse? name = some address) : host.resolve name = .ok address := by
  simp [resolve, address?, h]

/-! ## Addresses -/

/-- Why an address and a port cannot be listened on. Without a network, an address of four bytes is
taken as it comes, and an address of eight groups has to stand for any address or for one of four
bytes. -/
def addressFault? (host : Host) (address : IpAddress) (port : Nat) : Option IoError :=
  let reserved := if 0 < port ∧ port < firstOpenPort then some .permissionDenied else none
  match address with
  | .v4 _ => reserved
  | .v6 _ zone =>
    if address.isMulticast then some .invalidArgument
    else
      reserved.or <|
        if address.isUnspecified ∨ address.isMapped then none
        else if address.isLinkLocal ∧ zone = 0 then some .invalidArgument
        else if address.isLinkLocal ∧ zone ∉ host.zones.map Prod.snd then some .noSuchDevice
        else some .addressNotAvailable

/-- Why an address cannot be reached. There is no way to one of four bytes or to several hosts at
once, and the host has no address of eight groups to set out from. -/
def addressSilence (address : IpAddress) : IoError :=
  match address with
  | .v4 _ => .networkUnreachable
  | .v6 _ zone =>
    if address.isMulticast ∨ address.isMapped then .networkUnreachable
    else if address.isLinkLocal ∧ zone = 0 then .invalidArgument
    else .addressNotAvailable

/-- An address of eight groups can be listened on if it stands for any address or for one of four
bytes, at a port that is not reserved. -/
theorem addressFault?_v6_eq_none {host : Host} {groups : List Nat} {zone port : Nat} :
    host.addressFault? (.v6 groups zone) port = none ↔
      (v6 groups zone).isMulticast = false ∧ ¬(0 < port ∧ port < firstOpenPort) ∧
        ((v6 groups zone).isUnspecified = true ∨ (v6 groups zone).isMapped = true) := by
  by_cases hc : (v6 groups zone).isMulticast = true
  · simp [addressFault?, hc]
  by_cases hr : 0 < port ∧ port < firstOpenPort
  · simp [addressFault?, hc, hr]
  by_cases ha : (v6 groups zone).isUnspecified = true ∨ (v6 groups zone).isMapped = true
  · simp only [addressFault?, hc, hr, ha]
    simp
  · simp only [addressFault?, hc, hr, ha, if_false, Bool.false_eq_true, Option.none_or]
    split
    · simp
    · split <;> simp

/-- What can be listened on in one zone can be listened on in all of them. -/
theorem addressFault?_inZone {host : Host} {address : IpAddress} {port : Nat} (zone : Nat)
    (h : host.addressFault? address port = none) :
    host.addressFault? (address.inZone zone) port = none := by
  cases address with
  | v4 bytes => exact h
  | v6 groups old =>
    have hc := isMulticast_inZone zone (.v6 groups old)
    have hu := isUnspecified_inZone zone (.v6 groups old)
    have hm := isMapped_inZone zone (.v6 groups old)
    simp only [inZone] at hc hu hm ⊢
    rw [addressFault?_v6_eq_none] at h ⊢
    rw [hc, hu, hm]
    exact h

/-- The nameless pipe is always free. -/
theorem socketFault?_empty (host : Host) : host.socketFault? "" = none := by
  simp [socketFault?, pathFault?, socketPathLimit]

/-- A pipe is listened on only at a path that fits. -/
theorem pathFault?_of_socketFault? {host : Host} {path : String}
    (h : host.socketFault? path = none) : pathFault? path = none := by
  simp only [socketFault?, Option.or_eq_none_iff] at h
  exact h.1

end Host

end BytecodeDebugger
