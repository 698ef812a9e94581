import BytecodeDebugger.Proofs.Registry.Admission

/-!
# What a token stands for, before and after a registration

A token stands for the entry of that name, else for the entry that has it as an alias, else for the
only entry whose name it begins. A further entry can make such a beginning ambiguous, and an alias
of it takes precedence over it; whatever else a token stood for, it stands for afterwards.

Main facts: `resolve_cases` (the three ways to stand for an entry), `candidates_added_perm` and
`register_keeps_resolution`.
-/

namespace BytecodeDebugger.Registry

variable {α : Type} {r r' : Registry α} {e x : Entry α} {name token : String}

/-! ## The three ways to stand for an entry -/

/-- The candidates are the entries whose names begin with the token, unless it is empty. -/
theorem mem_candidates_iff :
    x ∈ r.candidates token ↔ x ∈ r.toList ∧ token ≠ "" ∧ token.toList <+: x.name.toList := by
  unfold candidates
  rw [List.mem_filter, Bool.and_eq_true, List.isPrefixOf_iff_prefix]
  simp

/-- An alias that is no name stands for the entry that has it. -/
theorem resolve_of_alias (hnone : r.get? token = none) (halias : r.aliases.find? token = some name)
    (hget : r.get? name = some x) : r.resolve token = .ok x := by
  have hfind : r.find token none = .ok name := by simp [find, hnone, halias]
  simp [resolve, hfind, hget]

/-- Any other token stands for the only candidate, if it is long enough for it. -/
theorem resolve_of_candidates (h : r.Coherent) (hnone : r.get? token = none)
    (halias : r.aliases.find? token = none) :
    r.resolve token =
      match r.candidates token with
      | [] => .error (.notFound token)
      | [x] => if x.minAbbrev ≤ token.length then .ok x else .error (.notFound token)
      | xs => .error (.ambiguous token (xs.map fun x => x.name)) := by
  match hcands : r.candidates token with
  | [] => simp [resolve, find, hnone, halias, hcands]
  | [x] =>
    have hx : x ∈ r.toList := (mem_candidates_iff.1 (hcands ▸ List.mem_singleton_self x)).1
    by_cases hlen : x.minAbbrev ≤ token.length
    · simp [resolve, find, hnone, halias, hcands, hlen, h.get?_name hx]
    · simp [resolve, find, hnone, halias, hcands, hlen]
  | x :: y :: rest => simp [resolve, find, hnone, halias, hcands]

/-- What a token stands for is an entry of that name, or of that alias, or the only one whose name
begins with the token. -/
theorem resolve_cases (h : r.Coherent) (hx : r.resolve token = .ok x) :
    r.get? token = some x ∨
    (∃ name, r.get? token = none ∧ r.aliases.find? token = some name ∧ r.get? name = some x) ∨
    (r.get? token = none ∧ r.aliases.find? token = none ∧ r.candidates token = [x] ∧
      x.minAbbrev ≤ token.length) := by
  cases hget : r.get? token with
  | some y =>
    rw [h.resolve_of_name hget] at hx
    exact .inl (congrArg some (Except.ok.inj hx))
  | none =>
    cases halias : r.aliases.find? token with
    | some name =>
      obtain ⟨y, hy, -⟩ := (h.alias_iff token name).1 halias
      rw [resolve_of_alias hget halias hy] at hx
      exact .inr (.inl ⟨name, rfl, rfl, hy.trans (congrArg some (Except.ok.inj hx))⟩)
    | none =>
      rw [resolve_of_candidates h hget halias] at hx
      match hcands : r.candidates token with
      | [] =>
        rw [hcands] at hx
        cases hx
      | [y] =>
        rw [hcands] at hx
        by_cases hlen : y.minAbbrev ≤ token.length
        · simp only [hlen, if_true, Except.ok.injEq] at hx
          subst hx
          exact .inr (.inr ⟨rfl, rfl, rfl, hlen⟩)
        · simp [hlen] at hx
      | y :: z :: rest =>
        rw [hcands] at hx
        cases hx

/-! ## A further entry -/

/-- A further entry is one more candidate for the beginnings of its name. -/
theorem candidates_added_perm (h : r.Fits e) (token : String) :
    ((r.added e).candidates token).Perm
      (if token ≠ "" ∧ token.toList <+: e.name.toList then e :: r.candidates token
      else r.candidates token) := by
  have hperm := (toList_added_perm h).filter
    fun x => !token.isEmpty && token.toList.isPrefixOf x.name.toList
  have hbegins : (!token.isEmpty && token.toList.isPrefixOf e.name.toList) = true ↔
      token ≠ "" ∧ token.toList <+: e.name.toList := by
    rw [Bool.and_eq_true, List.isPrefixOf_iff_prefix]
    simp
  rw [List.filter_cons] at hperm
  simp only [hbegins] at hperm
  exact hperm

/-- Two candidates or more make a token ambiguous. -/
theorem resolve_of_two_le (h : r.Coherent) (hnone : r.get? token = none)
    (halias : r.aliases.find? token = none) (hlen : 2 ≤ (r.candidates token).length) :
    ∃ names, r.resolve token = .error (.ambiguous token names) := by
  rw [resolve_of_candidates h hnone halias]
  match hcands : r.candidates token with
  | [] =>
    rw [hcands, List.length_nil] at hlen
    omega
  | [x] =>
    rw [hcands, List.length_singleton] at hlen
    omega
  | x :: y :: rest => exact ⟨_, rfl⟩

/-- An entry whose name abbreviates another one can be confused with it. -/
theorem confusable_of_name_accepted (hfits : r.Fits e) (hne : e.name ≠ "")
    (haccepts : x.Accepts e.name) : e.Confusable x :=
  Entry.confusable_of_accepts hne ⟨List.prefix_refl _, hfits.minAbbrev_le⟩ haccepts

/-- The only candidate of a token that is long enough for it is abbreviated by the token. -/
theorem accepts_of_candidates (hcands : r.candidates token = [x])
    (hlen : x.minAbbrev ≤ token.length) :
    x ∈ r.toList ∧ token ≠ "" ∧ x.Accepts token := by
  have hmem : x ∈ r.candidates token := hcands ▸ List.mem_singleton_self x
  obtain ⟨hlisted, hnonempty, hbegins⟩ := mem_candidates_iff.1 hmem
  exact ⟨hlisted, hnonempty, hbegins, hlen⟩

/-- An alias of a further entry abbreviated what it stood for, and stands for that further entry. -/
theorem resolve_added_of_mem_aliases (h : r.Coherent) (hadmits : r.Admits e)
    (hx : r.resolve token = .ok x) (hmem : token ∈ e.aliases) :
    x.Accepts token ∧ (r.added e).resolve token = .ok e := by
  have hlisted : e ∈ (r.added e).toList := (mem_toList_added hadmits.fits).2 (.inl rfl)
  refine ⟨?_, (h.added hadmits).resolve_of_mem_aliases hlisted hmem⟩
  -- the token was free, so it was neither a name nor an alias
  obtain ⟨hnone, halias⟩ := hadmits.fits.free_of_mem_aliases hmem
  rcases resolve_cases h hx with hget | ⟨name, -, hfind, -⟩ | ⟨-, -, hcands, hlen⟩
  · exact absurd (hget.symm.trans hnone) (Option.some_ne_none x)
  · exact absurd (hfind.symm.trans halias) (Option.some_ne_none name)
  · exact (accepts_of_candidates hcands hlen).2.2

/-- A token that was an abbreviation, and is no alias of a further entry, becomes ambiguous if the
new name begins with it too, and stands for the same entry otherwise. -/
theorem resolve_added_of_candidates (h : r.Coherent) (hadmits : r.Admits e)
    (hnone : r.get? token = none) (halias : (r.added e).aliases.find? token = none)
    (hcands : r.candidates token = [x]) (hlen : x.minAbbrev ≤ token.length) :
    (r.added e).resolve token = .ok x ∨
      ∃ names, (r.added e).resolve token = .error (.ambiguous token names) := by
  obtain ⟨hlisted, hnonempty, haccepts⟩ := accepts_of_candidates hcands hlen
  have hne : token ≠ e.name := by
    rintro rfl
    exact hadmits.not_confusable x hlisted
      (confusable_of_name_accepted hadmits.fits hnonempty haccepts)
  have hnone' : (r.added e).get? token = none := by rw [get?_added, if_neg hne, hnone]
  have hperm := candidates_added_perm hadmits.fits token
  by_cases hbegins : token ≠ "" ∧ token.toList <+: e.name.toList
  · rw [if_pos hbegins, hcands] at hperm
    exact .inr
      (resolve_of_two_le (h.added hadmits) hnone' halias (Nat.le_of_eq hperm.length_eq.symm))
  · rw [if_neg hbegins, hcands, List.perm_singleton] at hperm
    refine .inl ?_
    rw [resolve_of_candidates (h.added hadmits) hnone' halias, hperm]
    exact if_pos hlen

/-- Any other token that stood for an entry stands for it, or has become ambiguous. -/
theorem resolve_added_of_not_mem_aliases (h : r.Coherent) (hadmits : r.Admits e)
    (hx : r.resolve token = .ok x) (hmem : token ∉ e.aliases) :
    (r.added e).resolve token = .ok x ∨
      ∃ names, (r.added e).resolve token = .error (.ambiguous token names) := by
  have hfits := hadmits.fits
  have haliases : (r.added e).aliases.find? token = r.aliases.find? token := by
    rw [find?_aliases_added, if_neg hmem]
  rcases resolve_cases h hx with hget | ⟨name, hnone, halias, hget⟩ |
    ⟨hnone, halias, hcands, hlen⟩
  · exact .inl ((h.added hadmits).resolve_of_name (hfits.get?_added_eq_some hget))
  · -- what is an alias is not the new name
    have hnone' : (r.added e).get? token = none := by
      rw [get?_added, if_neg, hnone]
      rintro rfl
      exact Option.some_ne_none name (halias.symm.trans hfits.free_name.2)
    exact .inl
      (resolve_of_alias hnone' (haliases.trans halias) (hfits.get?_added_eq_some hget))
  · exact resolve_added_of_candidates h hadmits hnone (haliases.trans halias) hcands hlen

/-- What a token stands for after a further registration. A token that is no alias of the further
entry and stood for an entry still stands for it, or has become ambiguous; it never stands for
another one. A token that is an alias of the further entry was an abbreviation at most, and stands
for the further entry from then on. So a token that is an alias of one entry and abbreviates another
one stands for the entry that has the alias, in every registry that registrations lead to. -/
theorem register_keeps_resolution (entries : List (Entry α)) {e x : Entry α} {r' : Registry α}
    {token : String} (hregister : (ofList entries).register e = .ok r')
    (hx : (ofList entries).resolve token = .ok x) :
    (token ∉ e.aliases →
      r'.resolve token = .ok x ∨ ∃ names, r'.resolve token = .error (.ambiguous token names)) ∧
    (token ∈ e.aliases → x.Accepts token ∧ r'.resolve token = .ok e) ∧
    (∀ others : List (Entry α), ∀ a ∈ (ofList others).toList, ∀ b ∈ (ofList others).toList,
      ∀ t ∈ a.aliases, b.Accepts t → (ofList others).resolve t = .ok a) := by
  obtain ⟨hadmits, rfl⟩ := register_eq_ok_iff.1 hregister
  have hcoherent := coherent_ofList entries
  refine ⟨resolve_added_of_not_mem_aliases hcoherent hadmits hx,
    resolve_added_of_mem_aliases hcoherent hadmits hx, ?_⟩
  intro others a ha b _ t ht _
  exact (coherent_ofList others).resolve_of_mem_aliases ha ht

/-- Where "test" stands for "testing", a further entry "testament" leaves it with no other entry. -/
theorem register_testament_keeps_test :
    (ofList [⟨"testing", [], 4, true, ()⟩]).register ⟨"testament", ["will"], 6, true, ()⟩ =
      .ok ((ofList [⟨"testing", [], 4, true, ()⟩]).added ⟨"testament", ["will"], 6, true, ()⟩) ∧
    (ofList [⟨"testing", [], 4, true, ()⟩]).resolve "test" = .ok ⟨"testing", [], 4, true, ()⟩ ∧
    (((ofList [⟨"testing", [], 4, true, ()⟩]).added
        ⟨"testament", ["will"], 6, true, ()⟩).resolve "test" = .ok ⟨"testing", [], 4, true, ()⟩ ∨
      ∃ names, ((ofList [⟨"testing", [], 4, true, ()⟩]).added
        ⟨"testament", ["will"], 6, true, ()⟩).resolve "test" =
          .error (.ambiguous "test" names)) := by
  have hregister : (ofList [⟨"testing", [], 4, true, ()⟩]).register
      ⟨"testament", ["will"], 6, true, ()⟩ =
        .ok ((ofList [⟨"testing", [], 4, true, ()⟩]).added
          ⟨"testament", ["will"], 6, true, ()⟩) := by decide +kernel
  have hbefore : (ofList [⟨"testing", [], 4, true, ()⟩]).resolve "test" =
      .ok ⟨"testing", [], 4, true, ()⟩ := by decide +kernel
  exact ⟨hregister, hbefore,
    (register_keeps_resolution [⟨"testing", [], 4, true, ()⟩] hregister hbefore).1 (by decide)⟩

/-- An alias can take the place of an abbreviation: nothing keeps an alias of one entry apart from
the abbreviations of another one. Where "sk" stands for "skip", a further entry "jump" with the
alias "sk" is admitted, and "sk" stands for "jump" from then on. -/
theorem alias_redirects_abbreviation :
    (¬∀ (entries : List (Entry Unit)) (e x : Entry Unit) (r' : Registry Unit) (token : String),
      (ofList entries).register e = .ok r' → (ofList entries).resolve token = .ok x →
        r'.resolve token = .ok x ∨ ∃ names, r'.resolve token = .error (.ambiguous token names)) ∧
    ¬∀ (entries : List (Entry Unit)), ∀ a ∈ (ofList entries).toList,
      ∀ b ∈ (ofList entries).toList, ∀ token ∈ a.aliases, b.Accepts token → a = b := by
  constructor
  · intro h
    have hregister : (ofList [⟨"skip", [], 2, true, ()⟩]).register ⟨"jump", ["sk"], 4, true, ()⟩ =
        .ok ((ofList [⟨"skip", [], 2, true, ()⟩]).added ⟨"jump", ["sk"], 4, true, ()⟩) := by
      decide +kernel
    have hbefore : (ofList [⟨"skip", [], 2, true, ()⟩]).resolve "sk" =
        .ok ⟨"skip", [], 2, true, ()⟩ := by decide +kernel
    have hafter : ((ofList [⟨"skip", [], 2, true, ()⟩]).added
        ⟨"jump", ["sk"], 4, true, ()⟩).resolve "sk" = .ok ⟨"jump", ["sk"], 4, true, ()⟩ := by
      decide +kernel
    rcases h _ _ _ _ _ hregister hbefore with hsame | ⟨names, hambiguous⟩
    · exact absurd (hafter.symm.trans hsame) (by decide)
    · exact absurd (hafter.symm.trans hambiguous) (by simp)
  · intro h
    have hjump : (⟨"jump", ["sk"], 4, true, ()⟩ : Entry Unit) ∈
        (ofList [⟨"skip", [], 2, true, ()⟩, ⟨"jump", ["sk"], 4, true, ()⟩]).toList := by
      decide +kernel
    have hskip : (⟨"skip", [], 2, true, ()⟩ : Entry Unit) ∈
        (ofList [⟨"skip", [], 2, true, ()⟩, ⟨"jump", ["sk"], 4, true, ()⟩]).toList := by
      decide +kernel
    have haccepts : (⟨"skip", [], 2, true, ()⟩ : Entry Unit).Accepts "sk" :=
      ⟨by decide, by decide⟩
    exact absurd (h _ _ hjump _ hskip "sk" (by decide) haccepts) (by decide)

end BytecodeDebugger.Registry
