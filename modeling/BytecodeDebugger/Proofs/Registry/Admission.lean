import BytecodeDebugger.Proofs.Store.NameMap
import BytecodeDebugger.Registry.Lookup
import Mathlib.Data.List.Induction

/-!
# Which entries a registry admits

Two entries can be confused if their names begin with the same characters, and with so many of them
that both accept these as an abbreviation. A registry admits an entry whose name and aliases are
free exactly if it can be confused with no entry registered before. An entry that is admitted is
found under its name and its aliases from then on; one that is refused changes nothing. So a text
abbreviates one entry at most, and no alias is a name.

Main facts: `sharedAbbreviation_eq_none_iff` (one length decides about all of them),
`enter_of_admits` and `enter_of_not_admits` (what a registration does), `coherent_ofList` (what
registrations keep true) and `ofList_admits_unambiguous`.
-/

namespace BytecodeDebugger

variable {α : Type}

/-! ## Abbreviations -/

namespace Entry

/-- A text abbreviates an entry: the name begins with it, and it is long enough. -/
def Accepts (e : Entry α) (token : String) : Prop :=
  token.toList <+: e.name.toList ∧ e.minAbbrev ≤ token.length

/-- Two entries can be confused: for some length, which is at least one and enough for both and
which neither name falls short of, their names begin with the same characters. -/
def Confusable (a b : Entry α) : Prop :=
  ∃ k, 1 ≤ k ∧ max a.minAbbrev b.minAbbrev ≤ k ∧ k ≤ min a.name.length b.name.length ∧
    a.name.toList.take k = b.name.toList.take k

/-- To be confused is mutual. -/
theorem Confusable.symm {a b : Entry α} (h : a.Confusable b) : b.Confusable a := by
  obtain ⟨k, hk, hmin, hlen, htake⟩ := h
  exact ⟨k, hk, by omega, by omega, htake.symm⟩

/-- Entries that a text abbreviates both can be confused. -/
theorem confusable_of_accepts {a b : Entry α} {token : String} (ht : token ≠ "")
    (ha : a.Accepts token) (hb : b.Accepts token) : a.Confusable b := by
  obtain ⟨hpa, hma⟩ := ha
  obtain ⟨hpb, hmb⟩ := hb
  have hlena : token.length ≤ a.name.length := hpa.length_le
  have hlenb : token.length ≤ b.name.length := hpb.length_le
  have hpos : 1 ≤ token.length := Nat.pos_of_ne_zero (by simpa using ht)
  refine ⟨token.length, hpos, by omega, by omega, ?_⟩
  calc a.name.toList.take token.length
      = token.toList := (List.prefix_iff_eq_take.1 hpa).symm
    _ = b.name.toList.take token.length := List.prefix_iff_eq_take.1 hpb

end Entry

namespace Registry

/-- Names that begin with the same characters begin with the same fewer characters, so the least
length that is enough decides about all lengths. -/
theorem sharedAbbreviation_eq_none_iff {a b : Entry α} :
    sharedAbbreviation a.name a.minAbbrev b.name b.minAbbrev = none ↔ ¬a.Confusable b := by
  unfold sharedAbbreviation
  dsimp only
  rw [ite_eq_right_iff]
  constructor
  · rintro h ⟨k, hk, hmin, hlen, htake⟩
    have hle : max (max a.minAbbrev b.minAbbrev) 1 ≤ k := by omega
    refine Option.some_ne_none _ (h ⟨by omega, ?_⟩)
    have hfewer := congrArg (List.take (max (max a.minAbbrev b.minAbbrev) 1)) htake
    rwa [List.take_take, List.take_take, Nat.min_eq_left hle] at hfewer
  · rintro h ⟨hlen, htake⟩
    exact absurd ⟨_, by omega, by omega, hlen, htake⟩ h

/-- An abbreviation that two names share is one that both entries accept. -/
theorem accepts_of_sharedAbbreviation {a b : Entry α} {shared : String}
    (h : sharedAbbreviation a.name a.minAbbrev b.name b.minAbbrev = some shared) :
    shared ≠ "" ∧ a.Accepts shared ∧ b.Accepts shared := by
  unfold sharedAbbreviation at h
  dsimp only at h
  split at h
  case isFalse => cases h
  case isTrue hcond =>
    obtain ⟨hlen, htake⟩ := hcond
    obtain rfl := Option.some.inj h
    have hlength : (String.ofList (a.name.toList.take
        (max (max a.minAbbrev b.minAbbrev) 1))).length = max (max a.minAbbrev b.minAbbrev) 1 := by
      rw [String.length_ofList, List.length_take, String.length_toList]
      omega
    refine ⟨?_, ⟨?_, by omega⟩, ⟨?_, by omega⟩⟩
    · intro hempty
      rw [hempty, String.length_empty] at hlength
      omega
    · rw [String.toList_ofList]
      exact List.take_prefix _ _
    · rw [String.toList_ofList, htake]
      exact List.take_prefix _ _

/-! ## One registration -/

/-- The entry passes the checks of its own: its least abbreviation is not longer than its name, and
nobody else has its name or one of its aliases. -/
structure Fits (r : Registry α) (e : Entry α) : Prop where
  minAbbrev_le : e.minAbbrev ≤ e.name.length
  name_free : r.isTaken e.name = false
  alias_free : ∀ a ∈ e.aliases, a ≠ e.name ∧ r.isTaken a = false

/-- The registry admits an entry: it passes the checks of its own and can be confused with no entry
that is there. -/
structure Admits (r : Registry α) (e : Entry α) : Prop where
  fits : r.Fits e
  not_confusable : ∀ other ∈ r.toList, ¬e.Confusable other

/-- The registry with an entry and its aliases, whatever is there already. -/
def added (r : Registry α) (e : Entry α) : Registry α where
  entries := r.entries.insert e.name e
  aliases := e.aliases.foldl (fun m a => m.insert a e.name) r.aliases

variable {r r' : Registry α} {e x : Entry α} {name token : String}

/-- A free name is no name and no alias. -/
theorem isTaken_eq_false_iff :
    r.isTaken name = false ↔ r.get? name = none ∧ r.aliases.find? name = none := by
  unfold isTaken get?
  rw [Bool.or_eq_false_iff, NameMap.contains_eq_false_iff, NameMap.contains_eq_false_iff]

theorem Fits.free_name (h : r.Fits e) :
    r.get? e.name = none ∧ r.aliases.find? e.name = none :=
  isTaken_eq_false_iff.1 h.name_free

theorem Fits.free_of_mem_aliases (h : r.Fits e) (hmem : name ∈ e.aliases) :
    r.get? name = none ∧ r.aliases.find? name = none :=
  isTaken_eq_false_iff.1 (h.alias_free name hmem).2

theorem mem_toList_iff : x ∈ r.toList ↔ ∃ name, r.get? name = some x := NameMap.mem_values_iff

/-- An entry that a token stands for, under whatever settings, is listed. -/
theorem mem_toList_of_lookupWith {settings : SettingsView}
    (h : r.lookupWith token settings = some x) : x ∈ r.toList := by
  unfold lookupWith at h
  split at h
  · cases h
  · exact mem_toList_iff.2 ⟨_, h⟩

/-- There is no conflict exactly if the entry can be confused with none that is listed. -/
theorem conflict?_eq_none_iff :
    r.conflict? e = none ↔ ∀ other ∈ r.toList, ¬e.Confusable other := by
  unfold conflict?
  rw [List.findSome?_eq_none_iff]
  refine forall₂_congr fun other _ => ?_
  rw [Option.map_eq_none_iff, sharedAbbreviation_eq_none_iff]

/-- A conflict is one with an entry that is listed, about an abbreviation that both accept. -/
theorem exists_of_conflict? {first shared : String} (h : r.conflict? e = some (first, shared)) :
    ∃ other ∈ r.toList, other.name = first ∧ shared ≠ "" ∧ e.Accepts shared ∧
      other.Accepts shared := by
  obtain ⟨other, hother, hshared⟩ := List.exists_of_findSome?_eq_some h
  obtain ⟨found, hfound, heq⟩ := Option.map_eq_some_iff.1 hshared
  obtain ⟨rfl, rfl⟩ := Prod.mk.inj heq
  exact ⟨other, hother, rfl, accepts_of_sharedAbbreviation hfound⟩

/-- An entry that passes the checks of its own is refused for a conflict only. -/
theorem enter_of_fits (h : r.Fits e) :
    r.enter e =
      match r.conflict? e with
      | some (other, shared) => (.error (.ambiguousAbbreviation other e.name shared), r)
      | none => (.ok (), r.added e) := by
  have hlen : ¬e.name.length < e.minAbbrev := Nat.not_lt.2 h.minAbbrev_le
  have hname : ¬r.isTaken e.name = true := by
    rw [h.name_free]
    exact Bool.false_ne_true
  have halias : (e.aliases.find? fun a => a == e.name || r.isTaken a) = none := by
    rw [List.find?_eq_none]
    intro a ha
    obtain ⟨hne, hfree⟩ := h.alias_free a ha
    simp [hne, hfree]
  unfold enter
  rw [if_neg hlen, if_neg hname, halias]
  rfl

/-- An entry that does not pass the checks of its own is refused, and not for a conflict. -/
theorem enter_of_not_fits (h : ¬r.Fits e) :
    (∃ name least, r.enter e = (.error (.abbreviationTooLong name least), r)) ∨
      ∃ name, r.enter e = (.error (.duplicateName name), r) := by
  unfold enter
  by_cases hlen : e.name.length < e.minAbbrev
  · rw [if_pos hlen]
    exact .inl ⟨_, _, rfl⟩
  rw [if_neg hlen]
  by_cases hname : r.isTaken e.name = true
  · rw [if_pos hname]
    exact .inr ⟨_, rfl⟩
  rw [if_neg hname]
  cases halias : e.aliases.find? fun a => a == e.name || r.isTaken a with
  | some a => exact .inr ⟨a, rfl⟩
  | none =>
    refine absurd ⟨Nat.not_lt.1 hlen, Bool.eq_false_iff.2 hname, ?_⟩ h
    intro a ha
    have hfree := List.find?_eq_none.1 halias a ha
    rw [Bool.not_eq_true, Bool.or_eq_false_iff] at hfree
    exact ⟨by simpa using hfree.1, hfree.2⟩

/-- An entry that is admitted goes in with its aliases, and nothing else happens. -/
theorem enter_of_admits (h : r.Admits e) : r.enter e = (.ok (), r.added e) := by
  rw [enter_of_fits h.fits, conflict?_eq_none_iff.2 h.not_confusable]

/-- Any other entry is refused, and the registry is as it was. -/
theorem enter_of_not_admits (h : ¬r.Admits e) : ∃ refusal, r.enter e = (.error refusal, r) := by
  by_cases hfits : r.Fits e
  · rw [enter_of_fits hfits]
    cases hconflict : r.conflict? e with
    | none => exact absurd ⟨hfits, conflict?_eq_none_iff.1 hconflict⟩ h
    | some found => exact ⟨_, rfl⟩
  · rcases enter_of_not_fits hfits with ⟨_, _, herror⟩ | ⟨_, herror⟩
    · exact ⟨_, herror⟩
    · exact ⟨_, herror⟩

theorem enter_eq_ok_iff : (r.enter e).1 = .ok () ↔ r.Admits e := by
  by_cases h : r.Admits e
  · simp [enter_of_admits h, h]
  · obtain ⟨refusal, herror⟩ := enter_of_not_admits h
    simp [herror, h]

/-- A refusal for a conflict is one of an entry that passes the checks of its own. -/
theorem enter_eq_ambiguous_iff {first shared : String} :
    (r.enter e).1 = .error (.ambiguousAbbreviation first e.name shared) ↔
      r.Fits e ∧ r.conflict? e = some (first, shared) := by
  by_cases hfits : r.Fits e
  · rw [enter_of_fits hfits]
    cases hconflict : r.conflict? e with
    | none => simp
    | some found => simp [hfits, Prod.ext_iff]
  · rcases enter_of_not_fits hfits with ⟨_, _, herror⟩ | ⟨_, herror⟩
    · simp [herror, hfits]
    · simp [herror, hfits]

/-- An entry is registered exactly if it is admitted, and then it is added. -/
theorem register_eq_ok_iff : r.register e = .ok r' ↔ r.Admits e ∧ r' = r.added e := by
  unfold register
  by_cases h : r.Admits e
  · simp [enter_of_admits h, h, eq_comm]
  · obtain ⟨refusal, herror⟩ := enter_of_not_admits h
    simp [herror, h]

theorem get?_added (r : Registry α) (e : Entry α) (name : String) :
    (r.added e).get? name = if name = e.name then some e else r.get? name :=
  NameMap.find?_insert r.entries e.name name e

/-- An entry that is admitted takes the place of no other one. -/
theorem Fits.get?_added_eq_some (h : r.Fits e) (hget : r.get? name = some x) :
    (r.added e).get? name = some x := by
  rw [get?_added, if_neg, hget]
  rintro rfl
  exact Option.some_ne_none x (hget.symm.trans h.free_name.1)

/-- The aliases of the entry just added stand for it, and every other alias is as before. -/
theorem find?_aliases_added (r : Registry α) (e : Entry α) (name : String) :
    (r.added e).aliases.find? name =
      if name ∈ e.aliases then some e.name else r.aliases.find? name :=
  NameMap.find?_foldl_insert e.aliases r.aliases name e.name

theorem toList_added_perm (h : r.Fits e) : (r.added e).toList.Perm (e :: r.toList) :=
  NameMap.values_insert_perm h.free_name.1

theorem mem_toList_added (h : r.Fits e) : x ∈ (r.added e).toList ↔ x = e ∨ x ∈ r.toList := by
  rw [(toList_added_perm h).mem_iff, List.mem_cons]

/-! ## Any number of registrations -/

theorem ofList_append_singleton (entries : List (Entry α)) (e : Entry α) :
    ofList (entries ++ [e]) = ((ofList entries).enter e).2 := by
  simp [ofList]

/-- Registrations one after the other: what a registration keeps true is true after all of them. -/
theorem ofList_induction {P : Registry α → Prop} {entries : List (Entry α)} (hempty : P empty)
    (hstep : ∀ r e, P r → r.Admits e → P (r.added e)) : P (ofList entries) := by
  induction entries using List.reverseRecOn with
  | nil => exact hempty
  | append_singleton front e ih =>
    rw [ofList_append_singleton]
    by_cases h : (ofList front).Admits e
    · rw [enter_of_admits h]
      exact hstep _ e ih h
    · obtain ⟨refusal, herror⟩ := enter_of_not_admits h
      rw [herror]
      exact ih

/-- What is listed in the end is what was admitted when its turn came. -/
theorem mem_toList_ofList_iff {entries : List (Entry α)} :
    x ∈ (ofList entries).toList ↔ ∃ front, front ++ [x] <+: entries ∧ (ofList front).Admits x := by
  induction entries using List.reverseRecOn with
  | nil =>
    constructor
    · exact fun h => absurd h List.not_mem_nil
    · rintro ⟨front, hprefix, -⟩
      simp at hprefix
  | append_singleton earlier e ih =>
    have hturns : (∃ front, front ++ [x] <+: earlier ++ [e] ∧ (ofList front).Admits x) ↔
        x = e ∧ (ofList earlier).Admits e ∨ x ∈ (ofList earlier).toList := by
      rw [ih]
      constructor
      · rintro ⟨front, hprefix, hadmits⟩
        rcases List.prefix_concat_iff.1 hprefix with heq | hprefix
        · obtain ⟨rfl, rfl⟩ := List.append_singleton_inj.1 heq
          exact .inl ⟨rfl, hadmits⟩
        · exact .inr ⟨front, hprefix, hadmits⟩
      · rintro (⟨rfl, hadmits⟩ | ⟨front, hprefix, hadmits⟩)
        · exact ⟨earlier, List.prefix_refl _, hadmits⟩
        · exact ⟨front, hprefix.trans (List.prefix_append _ _), hadmits⟩
    rw [hturns, ofList_append_singleton]
    by_cases h : (ofList earlier).Admits e
    · rw [enter_of_admits h, mem_toList_added h.fits]
      simp [h]
    · obtain ⟨refusal, herror⟩ := enter_of_not_admits h
      rw [herror]
      simp [h]

theorem mem_of_mem_toList_ofList {entries : List (Entry α)} (h : x ∈ (ofList entries).toList) :
    x ∈ entries := by
  obtain ⟨front, hprefix, -⟩ := mem_toList_ofList_iff.1 h
  exact hprefix.subset (List.mem_append_right _ List.mem_cons_self)

/-- What registrations keep true of a registry. -/
structure Coherent (r : Registry α) : Prop where
  /-- An entry stands under its own name. -/
  name_eq : ∀ name e, r.get? name = some e → e.name = name
  /-- An alias stands for the entry that has it. -/
  alias_iff : ∀ a name, r.aliases.find? a = some name ↔ ∃ e, r.get? name = some e ∧ a ∈ e.aliases
  /-- No alias is a name. -/
  alias_free : ∀ a name, r.aliases.find? a = some name → r.get? a = none
  /-- No entry can be confused with another one. -/
  not_confusable : ∀ a ∈ r.toList, ∀ b ∈ r.toList, a.name ≠ b.name → ¬a.Confusable b

namespace Coherent

/-- Nothing can be wrong with a registry without entries. -/
theorem empty : (Registry.empty : Registry α).Coherent where
  name_eq := fun _ _ h => absurd h (Option.some_ne_none _).symm
  alias_iff := fun _ _ => ⟨fun h => absurd h (Option.some_ne_none _).symm,
    fun ⟨_, h, _⟩ => absurd h (Option.some_ne_none _).symm⟩
  alias_free := fun _ _ _ => rfl
  not_confusable := fun _ h => absurd h List.not_mem_nil

theorem get?_name (h : r.Coherent) (hx : x ∈ r.toList) : r.get? x.name = some x := by
  obtain ⟨name, hget⟩ := mem_toList_iff.1 hx
  rw [h.name_eq name x hget]
  exact hget

theorem eq_of_name_eq (h : r.Coherent) {a b : Entry α} (ha : a ∈ r.toList) (hb : b ∈ r.toList)
    (hname : a.name = b.name) : a = b := by
  have hget := h.get?_name ha
  rw [hname, h.get?_name hb] at hget
  exact (Option.some.inj hget).symm

/-- An alias of the entry just added stands for it, and no other entry has that alias; any other
alias stands for the entry that had it before. -/
theorem find?_aliases_added_eq_some_iff (h : r.Coherent) (hfits : r.Fits e) (a name : String) :
    (r.added e).aliases.find? a = some name ↔
      ∃ x, (r.added e).get? name = some x ∧ a ∈ x.aliases := by
  rw [find?_aliases_added, get?_added]
  by_cases ha : a ∈ e.aliases
  · have hold := (hfits.free_of_mem_aliases ha).2
    rw [if_pos ha]
    constructor
    · intro heq
      rw [if_pos (Option.some.inj heq).symm]
      exact ⟨e, rfl, ha⟩
    · rintro ⟨x, hget, hx⟩
      split at hget
      · next heq => rw [heq]
      · have hfind := (h.alias_iff a name).2 ⟨x, hget, hx⟩
        exact absurd (hfind.symm.trans hold) (Option.some_ne_none _)
  · rw [if_neg ha, h.alias_iff a name]
    by_cases heq : name = e.name
    · rw [if_pos heq, heq, hfits.free_name.1]
      simp [ha]
    · rw [if_neg heq]

/-- An entry that is admitted keeps a registry coherent. -/
theorem added (h : r.Coherent) (hadmits : r.Admits e) : (r.added e).Coherent := by
  obtain ⟨hfits, hclear⟩ := hadmits
  constructor
  case name_eq =>
    intro name x hget
    rw [get?_added] at hget
    split at hget
    · next heq => rw [← Option.some.inj hget, heq]
    · exact h.name_eq name x hget
  case alias_iff => exact h.find?_aliases_added_eq_some_iff hfits
  case alias_free =>
    intro a name hfind
    rw [find?_aliases_added] at hfind
    rw [get?_added]
    split at hfind
    · next ha =>
      rw [if_neg (hfits.alias_free a ha).1]
      exact (hfits.free_of_mem_aliases ha).1
    · rw [if_neg]
      · exact h.alias_free a name hfind
      · rintro rfl
        exact Option.some_ne_none _ (hfind.symm.trans hfits.free_name.2)
  case not_confusable =>
    intro a ha b hb hne
    rcases (mem_toList_added hfits).1 ha with rfl | holda
    · rcases (mem_toList_added hfits).1 hb with rfl | holdb
      · exact absurd rfl hne
      · exact hclear b holdb
    · rcases (mem_toList_added hfits).1 hb with rfl | holdb
      · exact fun hconf => hclear a holda hconf.symm
      · exact h.not_confusable a holda b holdb hne

/-- A name stands for its entry. -/
theorem resolve_of_name (h : r.Coherent) (hget : r.get? token = some x) :
    r.resolve token = .ok x := by
  have hfind := find_of_get? none hget
  rw [h.name_eq token x hget] at hfind
  simp [resolve, hfind, hget]

/-- An alias stands for the entry that has it. -/
theorem resolve_of_mem_aliases (h : r.Coherent) (hx : x ∈ r.toList) (hmem : token ∈ x.aliases) :
    r.resolve token = .ok x := by
  have hget := h.get?_name hx
  have halias := (h.alias_iff token x.name).2 ⟨x, hget, hmem⟩
  have hnone := h.alias_free token x.name halias
  have hfind : r.find token none = .ok x.name := by simp [find, hnone, halias]
  simp [resolve, hfind, hget]

end Coherent

/-- Every registry that registrations lead to is coherent. -/
theorem coherent_ofList (entries : List (Entry α)) : (ofList entries).Coherent :=
  ofList_induction .empty fun _ _ hr hadmits => hr.added hadmits

/-- The registry afterwards is the one before with an entry more: every other name and every other
alias is as it was, and the name and the aliases of the entry stand for it. -/
structure Gains (before : Registry α) (e : Entry α) (after : Registry α) : Prop where
  mem_toList : ∀ x, x ∈ after.toList ↔ x = e ∨ x ∈ before.toList
  get?_eq : ∀ name, after.get? name = if name = e.name then some e else before.get? name
  find?_aliases_eq : ∀ a, after.aliases.find? a =
    if a ∈ e.aliases then some e.name else before.aliases.find? a
  resolve_name : after.resolve e.name = .ok e
  resolve_alias : ∀ a ∈ e.aliases, after.resolve a = .ok e

/-- Such is the registry after an entry was admitted. -/
theorem gains_added (h : r.Coherent) (hadmits : r.Admits e) : r.Gains e (r.added e) where
  mem_toList := fun _ => mem_toList_added hadmits.fits
  get?_eq := get?_added r e
  find?_aliases_eq := find?_aliases_added r e
  resolve_name := (h.added hadmits).resolve_of_name (by rw [get?_added, if_pos rfl])
  resolve_alias := fun _ =>
    (h.added hadmits).resolve_of_mem_aliases ((mem_toList_added hadmits.fits).2 (.inl rfl))

/-- Registrations admit exactly what keeps names unambiguous. An entry is refused as ambiguous
exactly if it passes the checks of its own and can be confused with an entry registered before, and
the refusal names such an entry and an abbreviation that both accept; it is admitted exactly if it
passes these checks and can be confused with none. What is admitted is in the registry from then on,
with its aliases and beside all that was there. What is refused, for whatever reason, leaves the
registry as it was, so every name, alias and token stands for what it stood for. The registered
entries are those that were admitted when their turn came. So no text but the empty one abbreviates
two of them, and an alias stands for a registered entry that has it and is no entry's name. -/
theorem ofList_admits_unambiguous (entries : List (Entry α)) (e : Entry α) :
    ((∃ first shared, ((ofList entries).enter e).1 =
        .error (.ambiguousAbbreviation first e.name shared)) ↔
      (ofList entries).Fits e ∧ ∃ other ∈ (ofList entries).toList, e.Confusable other) ∧
    (∀ first shared,
      ((ofList entries).enter e).1 = .error (.ambiguousAbbreviation first e.name shared) →
        ∃ other ∈ (ofList entries).toList, other.name = first ∧ shared ≠ "" ∧
          e.Accepts shared ∧ other.Accepts shared) ∧
    (((ofList entries).enter e).1 = .ok () ↔
      (ofList entries).Fits e ∧ ∀ other ∈ (ofList entries).toList, ¬e.Confusable other) ∧
    (((ofList entries).enter e).1 = .ok () →
      (ofList entries).Gains e ((ofList entries).enter e).2) ∧
    (∀ refusal, ((ofList entries).enter e).1 = .error refusal →
      ((ofList entries).enter e).2 = ofList entries) ∧
    (∀ x, x ∈ (ofList entries).toList ↔
      ∃ front, front ++ [x] <+: entries ∧ ((ofList front).enter x).1 = .ok ()) ∧
    (∀ a ∈ (ofList entries).toList, ∀ b ∈ (ofList entries).toList, ∀ token, token ≠ "" →
      a.Accepts token → b.Accepts token → a = b) ∧
    (∀ a name, (ofList entries).aliases.find? a = some name →
      (∃ x, (ofList entries).get? name = some x ∧ a ∈ x.aliases) ∧
        ∀ x ∈ (ofList entries).toList, a ≠ x.name) := by
  have hcoherent := coherent_ofList entries
  have hconflict : (∃ first shared, (ofList entries).conflict? e = some (first, shared)) ↔
      ∃ other ∈ (ofList entries).toList, e.Confusable other := by
    have hnone := (conflict?_eq_none_iff (r := ofList entries) (e := e)).not
    rw [← ne_eq, Option.ne_none_iff_exists'] at hnone
    simpa using hnone
  refine ⟨?_, ?_, ?_, ?_, ?_, ?_, ?_, ?_⟩
  · simp only [enter_eq_ambiguous_iff, exists_and_left, hconflict]
  · intro first shared herror
    exact exists_of_conflict? (enter_eq_ambiguous_iff.1 herror).2
  · rw [enter_eq_ok_iff]
    exact ⟨fun h => ⟨h.fits, h.not_confusable⟩, fun h => ⟨h.1, h.2⟩⟩
  · intro hok
    have hadmits := enter_eq_ok_iff.1 hok
    rw [enter_of_admits hadmits]
    exact gains_added hcoherent hadmits
  · intro refusal herror
    have hnot : ¬(ofList entries).Admits e := by
      rw [← enter_eq_ok_iff, herror]
      simp
    obtain ⟨_, hsame⟩ := enter_of_not_admits hnot
    rw [hsame]
  · intro x
    simp only [enter_eq_ok_iff]
    exact mem_toList_ofList_iff
  · intro a ha b hb token ht haccepts hbaccepts
    by_contra hne
    have hname : a.name ≠ b.name := fun heq => hne (hcoherent.eq_of_name_eq ha hb heq)
    exact hcoherent.not_confusable a ha b hb hname
      (Entry.confusable_of_accepts ht haccepts hbaccepts)
  · intro a name hfind
    refine ⟨(hcoherent.alias_iff a name).1 hfind, ?_⟩
    rintro x hx rfl
    have hnone := hcoherent.alias_free x.name name hfind
    exact Option.some_ne_none x ((hcoherent.get?_name hx).symm.trans hnone)

/-- Beside "quit", which "q" abbreviates, "quiet" is refused, as "q" would abbreviate it too, and
"quit" with its alias stays. "query" needs three characters and comes in. -/
theorem ofList_admits_query :
    ((ofList [(⟨"quit", ["exit"], 1, true, ()⟩ : Entry Unit)]).enter
        ⟨"quiet", [], 1, true, ()⟩).1 =
          .error (.ambiguousAbbreviation "quit" "quiet" "q") ∧
      ((ofList [(⟨"quit", ["exit"], 1, true, ()⟩ : Entry Unit)]).enter
        ⟨"quiet", [], 1, true, ()⟩).2 = ofList [⟨"quit", ["exit"], 1, true, ()⟩] ∧
      ∃ after, (ofList [(⟨"quit", ["exit"], 1, true, ()⟩ : Entry Unit),
          ⟨"quiet", [], 1, true, ()⟩]).enter ⟨"query", ["ask"], 3, true, ()⟩ = (.ok (), after) ∧
        after.toList = [⟨"query", ["ask"], 3, true, ()⟩, ⟨"quit", ["exit"], 1, true, ()⟩] ∧
        after.resolve "exit" = .ok ⟨"quit", ["exit"], 1, true, ()⟩ ∧
        after.resolve "ask" = .ok ⟨"query", ["ask"], 3, true, ()⟩ := by
  have hambiguous : ((ofList [(⟨"quit", ["exit"], 1, true, ()⟩ : Entry Unit)]).enter
      ⟨"quiet", [], 1, true, ()⟩).1 =
        .error (.ambiguousAbbreviation "quit" "quiet" "q") := by decide +kernel
  obtain ⟨-, -, -, -, hrefused, -⟩ := ofList_admits_unambiguous
    [(⟨"quit", ["exit"], 1, true, ()⟩ : Entry Unit)] ⟨"quiet", [], 1, true, ()⟩
  obtain ⟨-, -, -, hadmitted, -⟩ := ofList_admits_unambiguous
    [(⟨"quit", ["exit"], 1, true, ()⟩ : Entry Unit), ⟨"quiet", [], 1, true, ()⟩]
    ⟨"query", ["ask"], 3, true, ()⟩
  have hok : ((ofList [(⟨"quit", ["exit"], 1, true, ()⟩ : Entry Unit),
      ⟨"quiet", [], 1, true, ()⟩]).enter ⟨"query", ["ask"], 3, true, ()⟩).1 = .ok () := by
    decide +kernel
  refine ⟨hambiguous, hrefused _ hambiguous, _, Prod.ext hok rfl, by decide +kernel,
    by decide +kernel, (hadmitted hok).resolve_alias "ask" (by decide)⟩

end Registry

end BytecodeDebugger
