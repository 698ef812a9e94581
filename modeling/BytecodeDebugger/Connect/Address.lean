/-!
# Internet addresses

The two kinds of addresses, their readers and their one written form. An address of four bytes is
written with dots. An address of eight groups is written in hexadecimal with colons; its longest run
of two or more zero groups is left out, the first one of several, and an address that stands for one
of four bytes shows these. It may be meant for one zone, which is written behind a percent sign.

Main facts: `length_groups_le` (no more groups are read than there is room for) and
`length_of_parse?` (an address that is read has its four bytes or its eight groups).
-/

namespace BytecodeDebugger

/-- An Internet address. -/
inductive IpAddress where
  /-- Four bytes. -/
  | v4 (bytes : List Nat)
  /-- Eight groups of sixteen bits, and the number of the zone that they are meant for; zero stands
  for none. -/
  | v6 (groups : List Nat) (zone : Nat)
  deriving DecidableEq, Repr

namespace IpAddress

/-! ## Reading -/

/-- The value of a digit. -/
def digit? (radix : Nat) (c : Char) : Option Nat :=
  let value :=
    if c.isDigit then some (c.toNat - '0'.toNat)
    else if 'a' ≤ c ∧ c ≤ 'f' then some (c.toNat - 'a'.toNat + 10)
    else if 'A' ≤ c ∧ c ≤ 'F' then some (c.toNat - 'A'.toNat + 10)
    else none
  value.filter fun v => v < radix

/-- A number of one to `maxDigits` digits, and what follows it. -/
def number? (radix maxDigits : Nat) (cs : List Char) : Option (List Nat × List Char) :=
  let digits := (cs.takeWhile fun c => (digit? radix c).isSome).filterMap (digit? radix)
  if digits.isEmpty ∨ maxDigits < digits.length then none
  else some (digits, cs.drop digits.length)

/-- The value of digits. -/
def valueOf (radix : Nat) (digits : List Nat) : Nat := digits.foldl (fun n d => n * radix + d) 0

/-- A byte without leading zeros, and what follows it. -/
def byte? (cs : List Char) : Option (Nat × List Char) :=
  match number? 10 3 cs with
  | none => none
  | some (digits, rest) =>
    let value := valueOf 10 digits
    if 255 < value ∨ (digits.head? = some 0 ∧ 1 < digits.length) then none else some (value, rest)

/-- Bytes with dots between them, and what follows them. -/
def bytes? : (count : Nat) → List Char → Option (List Nat × List Char)
  | 0, cs => some ([], cs)
  | 1, cs => (byte? cs).map fun r => ([r.1], r.2)
  | count + 1, cs =>
    match byte? cs with
    | some (b, '.' :: rest) => (bytes? count rest).map fun r => (b :: r.1, r.2)
    | _ => none

/-- One group, or the two groups of four bytes if there is room for them; `true` tells of the
latter. -/
def group? (room : Nat) (cs : List Char) : Option ((List Nat × Bool) × List Char) :=
  let four :=
    if 2 ≤ room then
      match bytes? 4 cs with
      | some ([a, b, c, d], rest) => some (([a * 256 + b, c * 256 + d], true), rest)
      | _ => none
    else none
  four.or ((number? 16 4 cs).map fun r => (([valueOf 16 r.1], false), r.2))

/-- Groups with colons between them as far as they go, at most `room` of them; four bytes end them,
and `true` tells of this. A colon in front of something else is left. -/
def groups : (room : Nat) → (isFirst : Bool) → List Char → (List Nat × Bool) × List Char
  | 0, _, cs => (([], false), cs)
  | room + 1, isFirst, cs =>
    let start := if isFirst then some cs else
      match cs with
      | ':' :: rest => some rest
      | _ => none
    match start.bind (group? (room + 1)) with
    | none => (([], false), cs)
    | some ((gs, true), rest) => ((gs, true), rest)
    | some ((gs, false), rest) =>
      let ((more, four), rest) := groups room false rest
      ((gs ++ more, four), rest)

/-- An address of eight groups. Two colons stand for at least one zero group. -/
def parse6? (cs : List Char) : Option IpAddress :=
  match groups 8 true cs with
  | ((head, four), rest) =>
    if head.length = 8 then if rest.isEmpty then some (.v6 head 0) else none
    else if four then none
    else
      match rest with
      | ':' :: ':' :: rest =>
        match groups (7 - head.length) true rest with
        | ((tail, _), []) =>
          some (.v6 (head ++ List.replicate (8 - head.length - tail.length) 0 ++ tail) 0)
        | _ => none
      | _ => none

/-- An address of four bytes. -/
def parse4? (cs : List Char) : Option IpAddress :=
  match bytes? 4 cs with
  | some (bytes, []) => some (.v4 bytes)
  | _ => none

/-- The address that a text stands for. -/
def parse? (text : String) : Option IpAddress :=
  (parse4? text.toList).or (parse6? text.toList)

/-! ## Writing -/

/-- Bytes with dots between them. -/
def dotted (bytes : List Nat) : String := String.intercalate "." (bytes.map toString)

/-- A group in hexadecimal. -/
def hexGroup (g : Nat) : String := String.ofList (Nat.toDigits 16 g)

/-- Groups with colons between them. -/
def colons (groups : List Nat) : String := String.intercalate ":" (groups.map hexGroup)

/-- The length of the run of zero groups in front. -/
def zeroRun (groups : List Nat) : Nat := (groups.takeWhile (· == 0)).length

/-- Where the longest run of zero groups starts and how long it is, the first one of several. -/
def longestRun (start : Nat) : List Nat → Nat × Nat
  | [] => (start, 0)
  | g :: rest =>
    let here := zeroRun (g :: rest)
    let later := longestRun (start + 1) rest
    if later.2 ≤ here then (start, here) else later

/-- The one written form of eight groups. -/
def shownGroups : List Nat → String
  | [0, 0, 0, 0, 0, 0xFFFF, a, b] => "::ffff:" ++ dotted [a / 256, a % 256, b / 256, b % 256]
  | groups =>
    let (start, length) := longestRun 0 groups
    if 2 ≤ length then
      colons (groups.take start) ++ "::" ++ colons (groups.drop (start + length))
    else colons groups

/-- The one written form of an address. -/
def shown : IpAddress → String
  | .v4 bytes => dotted bytes
  | .v6 groups zone => shownGroups groups ++ if zone = 0 then "" else "%" ++ toString zone

/-- An address with a port; groups are put in brackets. -/
def withPort (a : IpAddress) (port : Nat) : String :=
  match a with
  | .v4 _ => a.shown ++ ":" ++ toString port
  | .v6 _ _ => "[" ++ a.shown ++ "]:" ++ toString port

/-! ## Ranges and zones -/

/-- Whether an address of eight groups stands for several hosts at once. -/
def isMulticast : IpAddress → Bool
  | .v6 (g :: _) _ => 0xFF00 ≤ g
  | _ => false

/-- Whether an address of eight groups stands for a host on one network only. -/
def isLinkLocal : IpAddress → Bool
  | .v6 (g :: _) _ => 0xFE80 ≤ g && g ≤ 0xFEBF
  | _ => false

/-- Whether an address of eight groups has a meaning in one zone only, a host or a network. -/
def isZonal (a : IpAddress) : Bool :=
  match a with
  | .v6 (g :: _) _ => a.isLinkLocal || (a.isMulticast && (g % 16 == 1 || g % 16 == 2))
  | _ => false

/-- Whether an address of eight groups stands for any address. -/
def isUnspecified : IpAddress → Bool
  | .v6 groups _ => groups.all (· == 0)
  | _ => false

/-- Whether an address of eight groups stands for one of four bytes. -/
def isMapped : IpAddress → Bool
  | .v6 [0, 0, 0, 0, 0, 0xFFFF, _, _] _ => true
  | _ => false

/-- The zone of an address; zero stands for none. -/
def zone : IpAddress → Nat
  | .v4 _ => 0
  | .v6 _ zone => zone

/-- An address of eight groups, meant for a zone. -/
def inZone (zone : Nat) : IpAddress → IpAddress
  | .v4 bytes => .v4 bytes
  | .v6 groups _ => .v6 groups zone

@[simp] theorem isMulticast_inZone (zone : Nat) (a : IpAddress) :
    (a.inZone zone).isMulticast = a.isMulticast := by
  rcases a with _ | ⟨_ | _, _⟩ <;> rfl

@[simp] theorem isUnspecified_inZone (zone : Nat) (a : IpAddress) :
    (a.inZone zone).isUnspecified = a.isUnspecified := by
  cases a <;> rfl

@[simp] theorem isMapped_inZone (zone : Nat) (a : IpAddress) :
    (a.inZone zone).isMapped = a.isMapped := by
  cases a with
  | v4 bytes => rfl
  | v6 groups old =>
    simp only [inZone, isMapped]
    split <;> simp_all

/-! ## How long an address is -/

theorem length_of_bytes? {count : Nat} {cs rest : List Char} {bytes : List Nat}
    (h : bytes? count cs = some (bytes, rest)) : bytes.length = count := by
  fun_induction bytes? count cs generalizing bytes with
  | case1 cs => simp_all
  | case2 cs =>
    obtain ⟨r, -, hr⟩ := Option.map_eq_some_iff.1 h
    cases hr
    rfl
  | case3 cs count hne b more hbyte ih =>
    obtain ⟨r, hmore, hr⟩ := Option.map_eq_some_iff.1 h
    cases hr
    rw [List.length_cons, ih hmore]
  | case4 => cases h

/-- A group is one number, unless there is room for the two that four bytes make. -/
theorem length_of_group? {room : Nat} {cs rest : List Char} {gs : List Nat} {four : Bool}
    (h : group? room cs = some ((gs, four), rest)) :
    (four = false ∧ gs.length = 1) ∨ (four = true ∧ gs.length = 2 ∧ 2 ≤ room) := by
  unfold group? at h
  rcases Option.or_eq_some_iff.1 h with hfour | ⟨-, hnumber⟩
  · split at hfour
    · next hroom =>
      split at hfour
      · cases hfour
        exact .inr ⟨rfl, rfl, hroom⟩
      · cases hfour
    · cases hfour
  · obtain ⟨r, -, hr⟩ := Option.map_eq_some_iff.1 hnumber
    cases hr
    exact .inl ⟨rfl, rfl⟩

/-- There are no more groups than there is room for. -/
theorem length_groups_le (room : Nat) (isFirst : Bool) (cs : List Char) :
    (groups room isFirst cs).1.1.length ≤ room := by
  fun_induction groups room isFirst cs with
  | case1 => exact Nat.zero_le _
  | case2 => exact Nat.zero_le _
  | case3 room isFirst cs start gs rest hgroup =>
    obtain ⟨cs', -, hgroup⟩ := Option.bind_eq_some_iff.1 hgroup
    rcases length_of_group? hgroup with ⟨hfour, -⟩ | ⟨-, hlen, hroom⟩
    · cases hfour
    · exact hlen ▸ hroom
  | case4 room isFirst cs start gs rest hgroup more four rest' hmore ih =>
    obtain ⟨cs', -, hgroup⟩ := Option.bind_eq_some_iff.1 hgroup
    rw [hmore] at ih
    rcases length_of_group? hgroup with ⟨-, hlen⟩ | ⟨hfour, -⟩
    · simp only [List.length_append, hlen]
      dsimp only at ih
      omega
    · cases hfour

/-- An address of eight groups has eight of them, and no zone. -/
theorem exists_groups_of_parse6? {cs : List Char} {a : IpAddress} (h : parse6? cs = some a) :
    ∃ groups, a = .v6 groups 0 ∧ groups.length = 8 := by
  unfold parse6? at h
  have hhead := length_groups_le 8 true cs
  generalize groups 8 true cs = read at h hhead
  obtain ⟨⟨head, four⟩, rest⟩ := read
  dsimp only at h hhead
  split at h
  · next height =>
    split at h
    · cases h
      exact ⟨head, rfl, height⟩
    · cases h
  · split at h
    · cases h
    · split at h
      · next behind =>
        have htail := length_groups_le (7 - head.length) true behind
        split at h
        · next tail _ htails =>
          cases h
          rw [htails] at htail
          refine ⟨_, rfl, ?_⟩
          simp only [List.length_append, List.length_replicate]
          dsimp only at htail
          omega
        · cases h
      · cases h

/-- An address that is read has four bytes, or eight groups and no zone. -/
theorem length_of_parse? {text : String} {a : IpAddress} (h : parse? text = some a) :
    (∃ bytes, a = .v4 bytes ∧ bytes.length = 4) ∨
      ∃ groups, a = .v6 groups 0 ∧ groups.length = 8 := by
  rcases Option.or_eq_some_iff.1 h with h4 | ⟨-, h6⟩
  · unfold parse4? at h4
    split at h4
    · next bytes hbytes =>
      cases h4
      exact .inl ⟨bytes, rfl, length_of_bytes? hbytes⟩
    · cases h4
  · exact .inr (exists_groups_of_parse6? h6)

example : parse? "127.0.0.1" = some (.v4 [127, 0, 0, 1]) := by decide +kernel

example : parse? "::1" = some (.v6 [0, 0, 0, 0, 0, 0, 0, 1] 0) := by decide +kernel

end IpAddress

end BytecodeDebugger
