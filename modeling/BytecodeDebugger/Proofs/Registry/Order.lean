import BytecodeDebugger.Proofs.Registry.Admission

/-!
# The order of registrations

Whether a registry admits two entries does not depend on which one comes first: each check of one
against the other is mutual, names against names, names against aliases, aliases against aliases and
abbreviations against abbreviations. What the registry holds afterwards does not depend on it
either. So any number of entries can be registered in any order, or in none.

Main facts: `admits_added` (what a further entry asks of the one just added), `added_comm` and
`registerAll_perm`.
-/

namespace BytecodeDebugger

variable {α : Type}

/-- Two entries can be registered side by side: neither has the name or an alias of the other, and
they cannot be confused. -/
structure Entry.Apart (a b : Entry α) : Prop where
  name_ne : a.name ≠ b.name
  name_not_mem : a.name ∉ b.aliases
  not_mem_name : b.name ∉ a.aliases
  alias_not_mem : ∀ x ∈ a.aliases, x ∉ b.aliases
  not_confusable : ¬a.Confusable b

/-- To be apart is mutual. -/
theorem Entry.Apart.symm {a b : Entry α} (h : a.Apart b) : b.Apart a where
  name_ne := h.name_ne.symm
  name_not_mem := h.not_mem_name
  not_mem_name := h.name_not_mem
  alias_not_mem := fun x hb ha => h.alias_not_mem x ha hb
  not_confusable := fun hconf => h.not_confusable hconf.symm

namespace Registry

variable {r r' : Registry α} {a b e : Entry α} {name : String}

/-! ## Two registrations -/

/-- The name and the aliases of the entry just added are taken, and no other name but those taken
before. -/
theorem isTaken_added_eq_false_iff :
    (r.added e).isTaken name = false ↔
      r.isTaken name = false ∧ name ≠ e.name ∧ name ∉ e.aliases := by
  rw [isTaken_eq_false_iff, isTaken_eq_false_iff, get?_added, find?_aliases_added]
  by_cases hname : name = e.name
  · simp [hname]
  · by_cases halias : name ∈ e.aliases
    · simp [halias]
    · simp [hname, halias]

/-- What is admitted besides an entry just added was admitted before and is apart from it. -/
theorem admits_added (ha : r.Fits a) : (r.added a).Admits b ↔ r.Admits b ∧ a.Apart b := by
  constructor
  · rintro ⟨⟨hmin, hname, halias⟩, hclear⟩
    obtain ⟨hfree, hne, hmem⟩ := isTaken_added_eq_false_iff.1 hname
    have haliases : ∀ x ∈ b.aliases, r.isTaken x = false ∧ x ≠ a.name ∧ x ∉ a.aliases :=
      fun x hx => isTaken_added_eq_false_iff.1 (halias x hx).2
    refine ⟨⟨⟨hmin, hfree, fun x hx => ⟨(halias x hx).1, (haliases x hx).1⟩⟩, ?_⟩, ?_⟩
    · exact fun other hother => hclear other ((mem_toList_added ha).2 (.inr hother))
    · exact
        { name_ne := hne.symm
          name_not_mem := fun hx => (haliases _ hx).2.1 rfl
          not_mem_name := hmem
          alias_not_mem := fun x hxa hxb => (haliases x hxb).2.2 hxa
          not_confusable := fun hconf =>
            hclear a ((mem_toList_added ha).2 (.inl rfl)) hconf.symm }
  · rintro ⟨⟨⟨hmin, hname, halias⟩, hclear⟩, hapart⟩
    refine ⟨⟨hmin, ?_, fun x hx => ⟨(halias x hx).1, ?_⟩⟩, ?_⟩
    · exact isTaken_added_eq_false_iff.2 ⟨hname, hapart.name_ne.symm, hapart.not_mem_name⟩
    · refine isTaken_added_eq_false_iff.2 ⟨(halias x hx).2, ?_, ?_⟩
      · rintro rfl
        exact hapart.name_not_mem hx
      · exact fun hxa => hapart.alias_not_mem x hxa hx
    · intro other hother
      rcases (mem_toList_added ha).1 hother with rfl | hother
      · exact fun hconf => hapart.not_confusable hconf.symm
      · exact hclear other hother

/-- Registries with the same entry under every name and every alias are the same. -/
theorem eq_of_get?_eq (hget : ∀ name, r.get? name = r'.get? name)
    (halias : ∀ name, r.aliases.find? name = r'.aliases.find? name) : r = r' := by
  have hentries : r.entries = r'.entries := NameMap.eq_of_find?_eq hget
  have haliases : r.aliases = r'.aliases := NameMap.eq_of_find?_eq halias
  cases r
  cases r'
  cases hentries
  cases haliases
  rfl

/-- Entries that are apart can be added in either order. -/
theorem added_comm (h : a.Apart b) : (r.added a).added b = (r.added b).added a := by
  apply eq_of_get?_eq
  · intro name
    simp only [get?_added]
    by_cases ha : name = a.name
    · have hb : name ≠ b.name := ha ▸ h.name_ne
      rw [if_neg hb, if_pos ha, if_pos ha]
    · rw [if_neg ha, if_neg ha]
  · intro name
    simp only [find?_aliases_added]
    by_cases ha : name ∈ a.aliases
    · have hb : name ∉ b.aliases := h.alias_not_mem name ha
      rw [if_neg hb, if_pos ha, if_pos ha]
    · rw [if_neg ha, if_neg ha]

/-! ## Any number of registrations -/

/-- A list of entries is registered if its first entry is admitted and the others are registered
after it. -/
theorem registerAll_cons_eq_ok_iff {rest : List (Entry α)} :
    r.registerAll (e :: rest) = .ok r' ↔ r.Admits e ∧ (r.added e).registerAll rest = .ok r' := by
  rw [registerAll]
  cases hregister : r.register e with
  | error refusal =>
    constructor
    · intro h
      cases h
    · rintro ⟨hadmits, -⟩
      cases hregister.symm.trans (register_eq_ok_iff.2 ⟨hadmits, rfl⟩)
  | ok added =>
    obtain ⟨hadmits, rfl⟩ := register_eq_ok_iff.1 hregister
    exact ⟨fun h => ⟨hadmits, h⟩, fun h => h.2⟩

/-- Two entries in front are admitted, are apart, and are added in either order. -/
theorem registerAll_cons_cons_eq_ok_iff {rest : List (Entry α)} :
    r.registerAll (a :: b :: rest) = .ok r' ↔
      r.Admits a ∧ r.Admits b ∧ a.Apart b ∧ ((r.added a).added b).registerAll rest = .ok r' := by
  rw [registerAll_cons_eq_ok_iff, registerAll_cons_eq_ok_iff]
  constructor
  · rintro ⟨ha, hb, hrest⟩
    obtain ⟨hb, hapart⟩ := (admits_added ha.fits).1 hb
    exact ⟨ha, hb, hapart, hrest⟩
  · rintro ⟨ha, hb, hapart, hrest⟩
    exact ⟨ha, (admits_added ha.fits).2 ⟨hb, hapart⟩, hrest⟩

/-- The order of registrations does not matter. Entries that can be registered one after the other
can be registered in every other order too, and lead to the same registry, in which every name,
alias and token stands for the same entry and which lists the same entries in the same order. -/
theorem registerAll_perm {entries entries' : List (Entry α)} (h : entries.Perm entries')
    (r r' : Registry α) : r.registerAll entries = .ok r' ↔ r.registerAll entries' = .ok r' := by
  induction h generalizing r with
  | nil => rfl
  | cons e _ ih => rw [registerAll_cons_eq_ok_iff, registerAll_cons_eq_ok_iff, ih]
  | swap a b rest =>
    rw [registerAll_cons_cons_eq_ok_iff, registerAll_cons_cons_eq_ok_iff]
    constructor
    · rintro ⟨hb, ha, hapart, hrest⟩
      exact ⟨ha, hb, hapart.symm, added_comm hapart ▸ hrest⟩
    · rintro ⟨ha, hb, hapart, hrest⟩
      exact ⟨hb, ha, hapart.symm, added_comm hapart ▸ hrest⟩
  | trans _ _ ih ih' => rw [ih, ih']

/-- Where "quit" with its aliases is registered before "query", it can be registered after it, and
in the registry that both orders lead to "q" stands for "quit" and "que" for "query". -/
theorem registerAll_perm_quit_query :
    List.Perm [(⟨"quit", ["q", "exit"], 4, true, ()⟩ : Entry Unit), ⟨"query", [], 3, true, ()⟩]
        [⟨"query", [], 3, true, ()⟩, ⟨"quit", ["q", "exit"], 4, true, ()⟩] ∧
      ∃ r : Registry Unit,
        empty.registerAll [⟨"quit", ["q", "exit"], 4, true, ()⟩, ⟨"query", [], 3, true, ()⟩] =
          .ok r ∧
        empty.registerAll [⟨"query", [], 3, true, ()⟩, ⟨"quit", ["q", "exit"], 4, true, ()⟩] =
          .ok r ∧
        r.resolve "q" = .ok ⟨"quit", ["q", "exit"], 4, true, ()⟩ ∧
        r.resolve "que" = .ok ⟨"query", [], 3, true, ()⟩ := by
  have hperm : List.Perm
      [(⟨"quit", ["q", "exit"], 4, true, ()⟩ : Entry Unit), ⟨"query", [], 3, true, ()⟩]
      [⟨"query", [], 3, true, ()⟩, ⟨"quit", ["q", "exit"], 4, true, ()⟩] := List.Perm.swap _ _ _
  have hfirst : (empty : Registry Unit).registerAll
      [⟨"quit", ["q", "exit"], 4, true, ()⟩, ⟨"query", [], 3, true, ()⟩] =
        .ok (ofList [⟨"quit", ["q", "exit"], 4, true, ()⟩, ⟨"query", [], 3, true, ()⟩]) := by
    decide +kernel
  exact ⟨hperm, _, hfirst, (registerAll_perm hperm _ _).1 hfirst, by decide +kernel,
    by decide +kernel⟩

end Registry

end BytecodeDebugger
