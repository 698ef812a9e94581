import BytecodeDebugger.Proofs.Registry.Order
import BytecodeDebugger.Proofs.Registry.Resolution
import Mathlib.Data.List.Sort

/-!
# What a token stands for

The answers to a token, told from the entries of a registry alone. A name stands for its entry. An
alias that is no name stands for the entry that has it. Any other token that is not empty stands for
the only entry whose name begins with it, if it is long enough for this entry; if several names
begin with it, it is ambiguous between all of them. Whatever else is not found.

Main facts: `find_eq_ok_iff`, `isAmbiguous_iff` and `find_eq_notFound_iff` (the three answers,
whatever least length is asked for), and `lookupsAgree_ofList`.
-/

namespace BytecodeDebugger.Registry

variable {α : Type}

/-! ## Answers told from the entries -/

/-- The token is no name and no alias. -/
def Unclaimed (es : List (Entry α)) (token : String) : Prop :=
  ∀ x ∈ es, x.name ≠ token ∧ token ∉ x.aliases

instance (es : List (Entry α)) (token : String) : Decidable (Unclaimed es token) :=
  inferInstanceAs (Decidable (∀ x ∈ es, _))

/-- The token stands for an entry, where `least` says how long an abbreviation must be. -/
inductive StandsFor (es : List (Entry α)) (least : Entry α → Nat) (token : String) (e : Entry α) :
    Prop
  /-- It is the name. -/
  | name (hmem : e ∈ es) (hname : e.name = token)
  /-- It is no name, and an alias. -/
  | alias (hmem : e ∈ es) (hnone : ∀ x ∈ es, x.name ≠ token) (halias : token ∈ e.aliases)
  /-- It is neither, not empty, begins this name only, and is long enough. -/
  | abbreviation (hmem : e ∈ es) (hfree : Unclaimed es token) (hne : token ≠ "")
      (hbegins : token.toList <+: e.name.toList)
      (honly : ∀ x ∈ es, token.toList <+: x.name.toList → x = e) (hlen : least e ≤ token.length)

/-- The token is ambiguous between names: it is no name, no alias and not empty, and these are all
names that begin with it, in order, and at least two. -/
structure IsAmbiguous (es : List (Entry α)) (token : String) (names : List String) : Prop where
  unclaimed : Unclaimed es token
  ne_empty : token ≠ ""
  two_le : 2 ≤ names.length
  sorted : names.Pairwise (· < ·)
  mem_iff : ∀ n, n ∈ names ↔ ∃ x ∈ es, x.name = n ∧ token.toList <+: n.toList

variable {r r' : Registry α} {e x : Entry α} {name token : String} {least : Entry α → Nat}
  {min : Option Nat}

/-- The entries of a registry come in the order of their names. -/
theorem Coherent.pairwise_name (h : r.Coherent) : r.toList.Pairwise (·.name < ·.name) := by
  have hname : ∀ p ∈ r.entries.toList, p.2.name = p.1 := fun p hp =>
    h.name_eq p.1 p.2 (NameMap.find?_eq_some_iff.2 hp)
  refine List.pairwise_map.2 (r.entries.sorted.imp_of_mem fun {p q} hp hq hlt => ?_)
  rw [hname p hp, hname q hq]
  exact hlt

/-- The candidates for a token come in the order of their names. -/
theorem Coherent.pairwise_candidates (h : r.Coherent) (token : String) :
    ((r.candidates token).map fun e => e.name).Pairwise (· < ·) :=
  List.pairwise_map.2 (h.pairwise_name.sublist List.filter_sublist)

/-- A listed entry is the one that stands under its name. -/
theorem Coherent.name_eq_iff (h : r.Coherent) (hx : x ∈ r.toList) :
    x.name = token ↔ r.get? token = some x :=
  ⟨fun hname => hname ▸ h.get?_name hx, fun hget => h.name_eq token x hget⟩

/-- A token that is no name is the name of no entry. -/
theorem Coherent.get?_eq_none_iff (h : r.Coherent) :
    r.get? token = none ↔ ∀ x ∈ r.toList, x.name ≠ token := by
  constructor
  · intro hnone x hx hname
    exact Option.some_ne_none x (((h.name_eq_iff hx).1 hname).symm.trans hnone)
  · intro hall
    by_contra hsome
    obtain ⟨x, hget⟩ := Option.ne_none_iff_exists'.1 hsome
    exact hall x (mem_toList_iff.2 ⟨token, hget⟩) (h.name_eq token x hget)

/-- A token that is no alias is an alias of no entry. -/
theorem Coherent.alias_eq_none_iff (h : r.Coherent) :
    r.aliases.find? token = none ↔ ∀ x ∈ r.toList, token ∉ x.aliases := by
  constructor
  · intro hnone x hx halias
    exact Option.some_ne_none x.name
      (((h.alias_iff token x.name).2 ⟨x, h.get?_name hx, halias⟩).symm.trans hnone)
  · intro hall
    by_contra hsome
    obtain ⟨name, hfind⟩ := Option.ne_none_iff_exists'.1 hsome
    obtain ⟨x, hget, halias⟩ := (h.alias_iff token name).1 hfind
    exact hall x (mem_toList_iff.2 ⟨name, hget⟩) halias

/-- A token is unclaimed if it is found neither among the names nor among the aliases. -/
theorem Coherent.unclaimed_iff (h : r.Coherent) :
    Unclaimed r.toList token ↔ r.get? token = none ∧ r.aliases.find? token = none := by
  rw [h.get?_eq_none_iff, h.alias_eq_none_iff]
  exact ⟨fun hfree => ⟨fun x hx => (hfree x hx).1, fun x hx => (hfree x hx).2⟩,
    fun hfree x hx => ⟨hfree.1 x hx, hfree.2 x hx⟩⟩

/-! ## The three ways to stand for an entry -/

/-- A name stands for its entry only. -/
theorem standsFor_iff_of_name (h : r.Coherent) (hget : r.get? token = some x) :
    StandsFor r.toList least token e ↔ e = x := by
  have hx : x ∈ r.toList := mem_toList_iff.2 ⟨token, hget⟩
  have hname : x.name = token := h.name_eq token x hget
  constructor
  · rintro (⟨hmem, heq⟩ | ⟨-, hnone, -⟩ | ⟨-, hfree, -, -, -, -⟩)
    · exact h.eq_of_name_eq hmem hx (heq.trans hname.symm)
    · exact absurd hname (hnone x hx)
    · exact absurd hname (hfree x hx).1
  · rintro rfl
    exact .name hx hname

/-- An alias that is no name stands for the entry that has it only. -/
theorem standsFor_iff_of_alias (h : r.Coherent) (hnone : r.get? token = none)
    (halias : r.aliases.find? token = some name) (hget : r.get? name = some x) :
    StandsFor r.toList least token e ↔ e = x := by
  have hall := h.get?_eq_none_iff.1 hnone
  obtain ⟨y, hy, hmem⟩ := (h.alias_iff token name).1 halias
  obtain rfl : x = y := Option.some.inj (hget.symm.trans hy)
  have hx : x ∈ r.toList := mem_toList_iff.2 ⟨name, hget⟩
  constructor
  · rintro (⟨hmem, heq⟩ | ⟨he, -, halias'⟩ | ⟨-, hfree, -, -, -, -⟩)
    · exact absurd heq (hall e hmem)
    · have hfind := (h.alias_iff token e.name).2 ⟨e, h.get?_name he, halias'⟩
      have hname : name = e.name := Option.some.inj (halias.symm.trans hfind)
      exact h.eq_of_name_eq he hx (hname.symm.trans (h.name_eq name x hget).symm)
    · exact absurd hmem (hfree x hx).2
  · rintro rfl
    exact .alias hx hall hmem

/-- Any other token stands for its only candidate, if it is long enough for it. -/
theorem standsFor_iff_of_unclaimed (h : r.Coherent) (hfree : Unclaimed r.toList token) :
    StandsFor r.toList least token e ↔
      r.candidates token = [e] ∧ least e ≤ token.length := by
  constructor
  · rintro (⟨hmem, heq⟩ | ⟨hmem, -, halias⟩ | ⟨hmem, -, hne, hbegins, honly, hlen⟩)
    · exact absurd heq (hfree e hmem).1
    · exact absurd halias (hfree e hmem).2
    · refine ⟨?_, hlen⟩
      have hmem_iff : ∀ x, x ∈ r.candidates token ↔ x ∈ [e] := by
        intro x
        rw [mem_candidates_iff, List.mem_singleton]
        constructor
        · rintro ⟨hx, -, hbegins⟩
          exact honly x hx hbegins
        · rintro rfl
          exact ⟨hmem, hne, hbegins⟩
      have hnodup : (r.candidates token).Nodup := (h.pairwise_candidates token).nodup.of_map
      have hperm := (List.perm_ext_iff_of_nodup hnodup (List.nodup_singleton e)).2 hmem_iff
      exact List.perm_singleton.1 hperm
  · rintro ⟨hcands, hlen⟩
    have hmem : ∀ x, x ∈ r.candidates token ↔ x = e := fun x => by rw [hcands, List.mem_singleton]
    obtain ⟨he, hne, hbegins⟩ := mem_candidates_iff.1 ((hmem e).2 rfl)
    exact .abbreviation he hfree hne hbegins
      (fun x hx hbegins => (hmem x).1 (mem_candidates_iff.2 ⟨hx, hne, hbegins⟩)) hlen

theorem StandsFor.mem {es : List (Entry α)} (h : StandsFor es least token e) : e ∈ es := by
  cases h <;> assumption

/-! ## The three answers -/

/-- A token that is neither a name nor an alias is searched for among the candidates. -/
theorem find_of_unclaimed (hnone : r.get? token = none) (halias : r.aliases.find? token = none) :
    r.find token min =
      match r.candidates token with
      | [] => .error (.notFound token)
      | [e] =>
        if min.getD e.minAbbrev ≤ token.length then .ok e.name else .error (.notFound token)
      | es => .error (.ambiguous token (es.map fun e => e.name)) := by
  match hcands : r.candidates token with
  | [] => simp [find, hnone, halias, hcands]
  | [x] => simp [find, hnone, halias, hcands]
  | x :: y :: rest => simp [find, hnone, halias, hcands]

/-- A token is found exactly if it stands for an entry, and it is the name of this entry that is
found. -/
theorem find_eq_ok_iff (h : r.Coherent) :
    r.find token min = .ok name ↔
      ∃ e, StandsFor r.toList (fun e => min.getD e.minAbbrev) token e ∧ e.name = name := by
  cases hget : r.get? token with
  | some x =>
    rw [find_of_get? min hget]
    simp only [standsFor_iff_of_name h hget, exists_eq_left, Except.ok.injEq]
  | none =>
    cases halias : r.aliases.find? token with
    | some n =>
      obtain ⟨x, hx, -⟩ := (h.alias_iff token n).1 halias
      have hfind : r.find token min = .ok n := by simp [find, hget, halias]
      simp only [hfind, standsFor_iff_of_alias h hget halias hx, exists_eq_left,
        Except.ok.injEq, h.name_eq n x hx]
    | none =>
      have hfree := h.unclaimed_iff.2 ⟨hget, halias⟩
      simp only [find_of_unclaimed hget halias, standsFor_iff_of_unclaimed h hfree]
      rcases r.candidates token with _ | ⟨x, _ | ⟨y, rest⟩⟩
      · simp
      · by_cases hlen : min.getD x.minAbbrev ≤ token.length <;> simp [hlen]
      · simp

/-- A token is ambiguous exactly if it is neither a name nor an alias and has several candidates. -/
theorem find_eq_ambiguous_iff {t : String} {names : List String} :
    r.find token min = .error (.ambiguous t names) ↔
      t = token ∧ r.get? token = none ∧ r.aliases.find? token = none ∧
        2 ≤ (r.candidates token).length ∧ names = (r.candidates token).map fun e => e.name := by
  cases hget : r.get? token with
  | some x => simp [find_of_get? min hget]
  | none =>
    cases halias : r.aliases.find? token with
    | some n => simp [find, hget, halias]
    | none =>
      rw [find_of_unclaimed hget halias]
      rcases r.candidates token with _ | ⟨x, _ | ⟨y, rest⟩⟩
      · simp
      · by_cases hlen : min.getD x.minAbbrev ≤ token.length <;> simp [hlen]
      · simp [eq_comm]

/-- The names of the candidates for a token that is not empty are those that begin with it. -/
theorem mem_names_candidates_iff (hne : token ≠ "") :
    name ∈ (r.candidates token).map (fun e => e.name) ↔
      ∃ x ∈ r.toList, x.name = name ∧ token.toList <+: name.toList := by
  rw [List.mem_map]
  constructor
  · rintro ⟨x, hx, rfl⟩
    obtain ⟨hmem, -, hbegins⟩ := mem_candidates_iff.1 hx
    exact ⟨x, hmem, rfl, hbegins⟩
  · rintro ⟨x, hmem, rfl, hbegins⟩
    exact ⟨x, mem_candidates_iff.2 ⟨hmem, hne, hbegins⟩, rfl⟩

/-- The names of several candidates are what a token is ambiguous between. -/
theorem isAmbiguous_iff (h : r.Coherent) {names : List String} :
    IsAmbiguous r.toList token names ↔
      r.get? token = none ∧ r.aliases.find? token = none ∧
        2 ≤ (r.candidates token).length ∧ names = (r.candidates token).map fun e => e.name := by
  constructor
  · intro hamb
    obtain ⟨hnone, halias⟩ := h.unclaimed_iff.1 hamb.unclaimed
    have hnames : names = (r.candidates token).map fun e => e.name :=
      hamb.sorted.eq_of_mem_iff (h.pairwise_candidates token) fun n =>
        (hamb.mem_iff n).trans (mem_names_candidates_iff hamb.ne_empty).symm
    have hlen := hamb.two_le
    rw [hnames, List.length_map] at hlen
    exact ⟨hnone, halias, hlen, hnames⟩
  · rintro ⟨hnone, halias, hlen, rfl⟩
    have hne : token ≠ "" := by
      obtain ⟨x, hx⟩ := List.exists_mem_of_length_pos (Nat.lt_of_lt_of_le Nat.zero_lt_two hlen)
      exact (mem_candidates_iff.1 hx).2.1
    exact
      { unclaimed := h.unclaimed_iff.2 ⟨hnone, halias⟩
        ne_empty := hne
        two_le := by rwa [List.length_map]
        sorted := h.pairwise_candidates token
        mem_iff := fun n => mem_names_candidates_iff hne }

/-- A search that does not find a token says so of this token. -/
theorem eq_token_of_find_eq_notFound {t : String} (h : r.find token min = .error (.notFound t)) :
    t = token := by
  unfold find at h
  split at h
  · cases h
  · split at h
    · cases h
    · split at h
      · cases h
        rfl
      · split at h
        · cases h
        · cases h
          rfl
      · cases h

/-- A token is not found exactly if it stands for no entry and is not ambiguous. -/
theorem find_eq_notFound_iff (h : r.Coherent) {t : String} :
    r.find token min = .error (.notFound t) ↔
      t = token ∧ (∀ e, ¬StandsFor r.toList (fun e => min.getD e.minAbbrev) token e) ∧
        ∀ names, ¬IsAmbiguous r.toList token names := by
  constructor
  · intro hfind
    refine ⟨eq_token_of_find_eq_notFound hfind, fun e hstands => ?_, fun names hamb => ?_⟩
    · cases hfind.symm.trans ((find_eq_ok_iff h).2 ⟨e, hstands, rfl⟩)
    · cases hfind.symm.trans (find_eq_ambiguous_iff.2 ⟨rfl, (isAmbiguous_iff h).1 hamb⟩)
  · rintro ⟨rfl, hnone, hclear⟩
    match hfind : r.find t min with
    | .ok name =>
      obtain ⟨e, hstands, -⟩ := (find_eq_ok_iff h).1 hfind
      exact absurd hstands (hnone e)
    | .error (.ambiguous t' names) =>
      exact absurd ((isAmbiguous_iff h).2 (find_eq_ambiguous_iff.1 hfind).2) (hclear names)
    | .error (.notFound t') => rw [eq_token_of_find_eq_notFound hfind]

/-! ## The lookups -/

/-- What is found is the name of an entry, and the entry of this name is what the token stands
for. -/
theorem exists_find_get?_iff (min : Option Nat) (h : r.Coherent) :
    (∃ name, r.find token min = .ok name ∧ r.get? name = some e) ↔
      StandsFor r.toList (fun e => min.getD e.minAbbrev) token e := by
  constructor
  · rintro ⟨name, hfind, hget⟩
    obtain ⟨x, hstands, rfl⟩ := (find_eq_ok_iff h).1 hfind
    obtain rfl : x = e := Option.some.inj ((h.get?_name hstands.mem).symm.trans hget)
    exact hstands
  · intro hstands
    exact ⟨e.name, (find_eq_ok_iff h).2 ⟨e, hstands, rfl⟩, h.get?_name hstands.mem⟩

/-- A name that is found has an entry. -/
theorem get?_of_find (h : r.Coherent) (hfind : r.find token min = .ok name) :
    ∃ e, r.get? name = some e := by
  obtain ⟨x, hstands, rfl⟩ := (find_eq_ok_iff h).1 hfind
  exact ⟨x, h.get?_name hstands.mem⟩

/-- A token is resolved to the entry it stands for. -/
theorem resolve_eq_ok_iff (h : r.Coherent) :
    r.resolve token = .ok e ↔ StandsFor r.toList Entry.minAbbrev token e := by
  refine Iff.trans ?_ (exists_find_get?_iff none h)
  unfold resolve
  cases hfind : r.find token none with
  | error err => simp
  | ok name => cases hget : r.get? name <;> simp [hget]

/-- A token that is not resolved is not found, for the same reason. -/
theorem resolve_eq_error_iff (h : r.Coherent) {err : LookupError} :
    r.resolve token = .error err ↔ r.find token none = .error err := by
  unfold resolve
  cases hfind : r.find token none with
  | error err => simp
  | ok name =>
    obtain ⟨x, hget⟩ := get?_of_find h hfind
    simp [hget]

theorem lookup_eq_some_iff : r.lookup token = some e ↔ r.resolve token = .ok e := by
  unfold lookup
  cases r.resolve token <;> simp

/-- Settings can say how long an abbreviation must be, and change nothing else. -/
theorem lookupWith_eq_some_iff (h : r.Coherent) {settings : SettingsView} :
    r.lookupWith token settings = some e ↔
      StandsFor r.toList (fun e => (minOverride settings).getD e.minAbbrev) token e := by
  rw [← exists_find_get?_iff (minOverride settings) h]
  unfold lookupWith
  cases r.find token (minOverride settings) <;> simp

/-- A positive number is how long an abbreviation must be. -/
theorem minOverride_of_pos {settings : SettingsView} {n : Int}
    (hint : settings.int? "abbrev" = some n) (hpos : 0 < n) :
    minOverride settings = some n.toNat := by
  simp [minOverride, hint, hpos]

/-- Without a positive number the settings do not say how long an abbreviation must be. -/
theorem minOverride_eq_none {settings : SettingsView}
    (h : ∀ n, settings.int? "abbrev" = some n → n ≤ 0) : minOverride settings = none := by
  unfold minOverride
  cases hint : settings.int? "abbrev" with
  | none => rfl
  | some n => exact if_neg (Int.not_lt.2 (h n hint))

/-- The entry that a token stands for is the only one that a change of its value touches. -/
theorem modify_eq_some_iff (h : r.Coherent) {f : α → α} :
    r.modify token f = some (e, r') ↔
      ∃ x, StandsFor r.toList Entry.minAbbrev token x ∧ e = x.map f ∧
        (∀ name, r'.get? name = if name = x.name then some e else r.get? name) ∧
        r'.aliases = r.aliases := by
  have hinsert (x : Entry α) :
      (∀ name, r'.get? name = if name = x.name then some e else r.get? name) ∧
          r'.aliases = r.aliases ↔
        { r with entries := r.entries.insert x.name e } = r' := by
    constructor
    · rintro ⟨hget, haliases⟩
      refine eq_of_get?_eq (fun name => ?_) (fun name => by rw [haliases])
      rw [hget]
      exact NameMap.find?_insert r.entries x.name name e
    · rintro rfl
      exact ⟨fun name => NameMap.find?_insert r.entries x.name name e, rfl⟩
  simp only [hinsert]
  constructor
  · intro hmodify
    unfold modify at hmodify
    split at hmodify
    · cases hmodify
    · next name hfind =>
      split at hmodify
      · cases hmodify
      · next x hget =>
        cases hmodify
        refine ⟨x, (exists_find_get?_iff none h).1 ⟨name, hfind, hget⟩, rfl, ?_⟩
        rw [h.name_eq name x hget]
  · rintro ⟨x, hstands, rfl, rfl⟩
    obtain ⟨name, hfind, hget⟩ := (exists_find_get?_iff none h).2 hstands
    have hname := h.name_eq name x hget
    simp [modify, hfind, hget, hname, Entry.map]

/-- The lookups agree about a token on what it stands for. -/
structure LookupsAgree (r : Registry α) (token : String) : Prop where
  /-- It is resolved to the entry it stands for. -/
  resolve_ok : ∀ e, r.resolve token = .ok e ↔ StandsFor r.toList Entry.minAbbrev token e
  /-- It is ambiguous between the names that begin with it. -/
  resolve_ambiguous : ∀ t names, r.resolve token = .error (.ambiguous t names) ↔
    t = token ∧ IsAmbiguous r.toList token names
  /-- Otherwise it is not found. -/
  resolve_notFound : ∀ t, r.resolve token = .error (.notFound t) ↔
    t = token ∧ (∀ e, ¬StandsFor r.toList Entry.minAbbrev token e) ∧
      ∀ names, ¬IsAmbiguous r.toList token names
  /-- A lookup gives what it is resolved to. -/
  lookup_some : ∀ e, r.lookup token = some e ↔ r.resolve token = .ok e
  /-- A change is one of what it is resolved to, and of nothing else. -/
  modify_some : ∀ f e r', r.modify token f = some (e, r') ↔
    ∃ x, r.resolve token = .ok x ∧ e = x.map f ∧
      (∀ name, r'.get? name = if name = x.name then some e else r.get? name) ∧
      r'.aliases = r.aliases
  /-- A positive number in the settings replaces the least abbreviation of every entry. -/
  lookupWith_some : ∀ (settings : SettingsView) (n : Int), settings.int? "abbrev" = some n →
    0 < n → ∀ e, r.lookupWith token settings = some e ↔
      StandsFor r.toList (fun _ => n.toNat) token e
  /-- Other settings change nothing. -/
  lookupWith_eq : ∀ settings : SettingsView, (∀ n, settings.int? "abbrev" = some n → n ≤ 0) →
    r.lookupWith token settings = r.lookup token
  /-- A name that is found for it has an entry. -/
  get?_found : ∀ min name, r.find token min = .ok name → ∃ e, r.get? name = some e

/-- In every registry that registrations lead to, the lookups agree about every token on what it
stands for. -/
theorem lookupsAgree_ofList (entries : List (Entry α)) (token : String) :
    (ofList entries).LookupsAgree token := by
  have h := coherent_ofList entries
  generalize ofList entries = r at h
  exact
    { resolve_ok := fun e => resolve_eq_ok_iff h
      resolve_ambiguous := fun t names => by
        rw [resolve_eq_error_iff h, find_eq_ambiguous_iff, isAmbiguous_iff h]
      resolve_notFound := fun t => (resolve_eq_error_iff h).trans (find_eq_notFound_iff h)
      lookup_some := fun e => lookup_eq_some_iff
      modify_some := fun f e r' => by
        simp only [resolve_eq_ok_iff h]
        exact modify_eq_some_iff h
      lookupWith_some := fun settings n hint hpos e => by
        rw [lookupWith_eq_some_iff h, minOverride_of_pos hint hpos]
        rfl
      lookupWith_eq := fun settings hnone => lookupWith_of_no_abbrev (minOverride_eq_none hnone)
      get?_found := fun min name => get?_of_find h }

/-- Where "testing" asks for four characters, "te" stands for it under settings that ask for two. -/
theorem lookupsAgree_testing :
    ∃ settings : SettingsView, settings.int? "abbrev" = some 2 ∧
      (ofList [⟨"testing", [], 4, true, ()⟩]).lookup "te" = none ∧
      StandsFor (ofList [⟨"testing", [], 4, true, ()⟩]).toList (fun _ => 2) "te"
        ⟨"testing", [], 4, true, ()⟩ := by
  have hint : SettingsView.int? (fun _ => some (.int 2)) "abbrev" = some 2 := rfl
  have hfound : (ofList [⟨"testing", [], 4, true, ()⟩]).lookupWith "te" (fun _ => some (.int 2)) =
      some ⟨"testing", [], 4, true, ()⟩ := by decide +kernel
  have hagree := lookupsAgree_ofList [⟨"testing", [], 4, true, ()⟩] "te"
  exact ⟨_, hint, by decide +kernel,
    (hagree.lookupWith_some _ 2 hint (by decide) _).1 hfound⟩

/-- No name is the empty token, and every name begins with it, but it is not ambiguous between
them: it is not found. -/
theorem resolve_empty_not_ambiguous :
    ¬∀ (entries : List (Entry Unit)) (token : String) (names : List String),
      Unclaimed (ofList entries).toList token → 2 ≤ names.length → names.Pairwise (· < ·) →
        (∀ n, n ∈ names ↔
          ∃ x ∈ (ofList entries).toList, x.name = n ∧ token.toList <+: n.toList) →
          (ofList entries).resolve token = .error (.ambiguous token names) := by
  intro h
  have hlist : (ofList [⟨"alpha", [], 1, true, ()⟩, ⟨"beta", [], 1, true, ()⟩]).toList =
      [⟨"alpha", [], 1, true, ()⟩, ⟨"beta", [], 1, true, ()⟩] := by decide +kernel
  have hfound : (ofList [⟨"alpha", [], 1, true, ()⟩, ⟨"beta", [], 1, true, ()⟩]).resolve "" =
      .error (.notFound "") := by decide +kernel
  have hamb := h [⟨"alpha", [], 1, true, ()⟩, ⟨"beta", [], 1, true, ()⟩] "" ["alpha", "beta"]
  rw [hlist, hfound] at hamb
  have hfree : Unclaimed
      [(⟨"alpha", [], 1, true, ()⟩ : Entry Unit), ⟨"beta", [], 1, true, ()⟩] "" := by decide
  refine absurd (hamb hfree (by decide) (by decide) fun n => ?_) (by decide)
  simp [eq_comm]

end BytecodeDebugger.Registry
