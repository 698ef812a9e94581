import BytecodeDebugger.Proofs.Registry.Lookup
import BytecodeDebugger.Settings.Basic
import Mathlib.Algebra.Group.Nat.Defs

/-!
# One least abbreviation for all entries

Settings can hold a number that replaces the least abbreviation of every entry. Looking a token up
under such settings is looking it up where every entry has this least abbreviation, as long as the
number fits a signed word of 64 bits. A greater number is seen as a negative one and replaces
nothing, which shows where a token begins one name only and is long enough for its entry.

Main facts: `lookup_withMinimum` (the same search, with the number), `minOverride_view` (the number
that the settings ask for) and `lookupWith_replaces_minimum_iff`.
-/

namespace BytecodeDebugger

variable {α : Type}

/-- A name has its changed value in a map with every value changed. -/
theorem NameMap.find?_map {β : Type} (f : α → β) (m : NameMap α) (name : String) :
    (m.map f).find? name = (m.find? name).map f := by
  unfold map find?
  rw [List.find?_map, Option.map_map, Option.map_map]
  rfl

/-- The entry with another least abbreviation. -/
def Entry.withMinimum (least : Nat) (e : Entry α) : Entry α := { e with minAbbrev := least }

namespace Registry

variable {r : Registry α} {e : Entry α} {token : String} {least : Nat} {min min' : Option Nat}

/-- The registry in which every entry has this least abbreviation. -/
def withMinimum (r : Registry α) (least : Nat) : Registry α :=
  ⟨r.entries.map (Entry.withMinimum least), r.aliases⟩

/-! ## Searching with a least length -/

/-- The entry that a token stands for, where `min` replaces the least abbreviation of each one. -/
def answer (r : Registry α) (token : String) (min : Option Nat) : Option (Entry α) :=
  match r.find token min with
  | .error _ => none
  | .ok name => r.get? name

/-- A lookup replaces nothing. -/
theorem lookup_eq_answer (r : Registry α) (token : String) :
    r.lookup token = r.answer token none := by
  unfold lookup resolve answer
  cases r.find token none with
  | error err => rfl
  | ok name => cases hget : r.get? name <;> simp [hget]

theorem lookupWith_eq_answer (r : Registry α) (token : String) (settings : SettingsView) :
    r.lookupWith token settings = r.answer token (minOverride settings) := rfl

theorem get?_withMinimum (r : Registry α) (least : Nat) (name : String) :
    (r.withMinimum least).get? name = (r.get? name).map (Entry.withMinimum least) :=
  NameMap.find?_map _ _ _

/-- A token begins the names of the same entries. -/
theorem candidates_withMinimum (r : Registry α) (least : Nat) (token : String) :
    (r.withMinimum least).candidates token =
      (r.candidates token).map (Entry.withMinimum least) := by
  unfold candidates toList NameMap.values withMinimum NameMap.map
  rw [List.map_map, List.filter_map, List.filter_map, List.map_map]
  rfl

/-- To search where every entry has this least abbreviation is to search with it. -/
theorem find_withMinimum (r : Registry α) (least : Nat) (token : String) :
    (r.withMinimum least).find token none = r.find token (some least) := by
  cases hget : r.get? token with
  | some x =>
    rw [find_of_get? (some least) hget, find_of_get? none (e := x.withMinimum least)]
    · rfl
    · rw [get?_withMinimum, hget, Option.map_some]
  | none =>
    have hnone : (r.withMinimum least).get? token = none := by
      rw [get?_withMinimum, hget, Option.map_none]
    cases halias : r.aliases.find? token with
    | some name =>
      have halias' : (r.withMinimum least).aliases.find? token = some name := halias
      simp only [find, hget, hnone, halias, halias']
    | none =>
      rw [find_of_unclaimed hget halias, find_of_unclaimed hnone halias, candidates_withMinimum]
      rcases r.candidates token with _ | ⟨x, _ | ⟨y, rest⟩⟩
      · rfl
      · rfl
      · simp [Entry.withMinimum, Function.comp_def]

/-- To look a token up where every entry has this least abbreviation is to search for it with this
length. -/
theorem lookup_withMinimum (r : Registry α) (least : Nat) (token : String) :
    (r.withMinimum least).lookup token =
      (r.answer token (some least)).map (Entry.withMinimum least) := by
  rw [lookup_eq_answer, answer, answer, find_withMinimum]
  cases r.find token (some least) with
  | error err => rfl
  | ok name => exact get?_withMinimum r least name

/-! ## What the least length makes a difference to -/

/-- It makes no difference to a name or an alias. -/
theorem answer_of_claimed (h : r.Coherent) (hclaimed : ¬Unclaimed r.toList token)
    (min min' : Option Nat) : r.answer token min = r.answer token min' := by
  cases hget : r.get? token with
  | some x => simp only [answer, find_of_get? _ hget]
  | none =>
    cases halias : r.aliases.find? token with
    | some name => simp only [answer, find, hget, halias]
    | none => exact absurd (h.unclaimed_iff.2 ⟨hget, halias⟩) hclaimed

/-- The only entry whose name a token begins is the answer if the token is long enough. -/
theorem answer_of_candidates_eq (h : r.Coherent) (hfree : Unclaimed r.toList token)
    (hcands : r.candidates token = [e]) (min : Option Nat) :
    r.answer token min = if min.getD e.minAbbrev ≤ token.length then some e else none := by
  obtain ⟨hget, halias⟩ := h.unclaimed_iff.1 hfree
  have he : e ∈ r.toList := (mem_candidates_iff.1 (hcands ▸ List.mem_singleton_self e)).1
  rw [answer, find_of_unclaimed hget halias, hcands]
  by_cases hlen : min.getD e.minAbbrev ≤ token.length
  · simp [hlen, h.get?_name he]
  · simp [hlen]

/-- A token that begins no name, or several ones, has no answer. -/
theorem answer_of_candidates_ne (h : r.Coherent) (hfree : Unclaimed r.toList token)
    (hcands : ∀ e, r.candidates token ≠ [e]) (min : Option Nat) : r.answer token min = none := by
  obtain ⟨hget, halias⟩ := h.unclaimed_iff.1 hfree
  rw [answer, find_of_unclaimed hget halias]
  rcases hlist : r.candidates token with _ | ⟨x, _ | ⟨y, rest⟩⟩
  · rfl
  · exact absurd hlist (hcands x)
  · rfl

/-- Replacing the least abbreviations makes no difference exactly where the token is a name or an
alias, begins no name or several ones, or begins one name and is long enough either way or neither
way. -/
theorem answer_none_eq_answer_some_iff (h : r.Coherent) :
    (r.answer token none).map (Entry.withMinimum least) =
        (r.answer token (some least)).map (Entry.withMinimum least) ↔
      (Unclaimed r.toList token → ∀ e, r.candidates token = [e] →
        (e.minAbbrev ≤ token.length ↔ least ≤ token.length)) := by
  by_cases hfree : Unclaimed r.toList token
  · by_cases hsingle : ∃ e, r.candidates token = [e]
    · obtain ⟨e, hcands⟩ := hsingle
      have honly : (Unclaimed r.toList token → ∀ x, r.candidates token = [x] →
          (x.minAbbrev ≤ token.length ↔ least ≤ token.length)) ↔
            (e.minAbbrev ≤ token.length ↔ least ≤ token.length) := by
        simp [hfree, hcands]
      rw [honly, answer_of_candidates_eq h hfree hcands, answer_of_candidates_eq h hfree hcands,
        Option.getD_none, Option.getD_some]
      by_cases hown : e.minAbbrev ≤ token.length <;> by_cases hleast : least ≤ token.length <;>
        simp only [hown, hleast, if_true, if_false, Option.map_some, Option.map_none, reduceCtorEq,
          iff_true, iff_false, not_true_eq_false]
    · have hcands : ∀ e, r.candidates token ≠ [e] := fun e he => hsingle ⟨e, he⟩
      simp [answer_of_candidates_ne h hfree hcands, hcands]
  · simp [answer_of_claimed h hfree none (some least), hfree]

/-! ## Settings -/

/-- Settings ask for a positive number that fits a signed word, and for nothing if it does not. -/
theorem minOverride_view {s : Settings} (hs : s.minAbbrev = some least) (hpos : 1 ≤ least)
    (hlimit : least < 2 ^ 64) :
    minOverride s.view = if least < 2 ^ 63 then some least else none := by
  have hview : s.view.int? "abbrev" = some (SettingValue.signed least) := by
    simp [SettingsView.int?, Settings.view, hs, SettingValue.ofCount]
  by_cases hfits : least < 2 ^ 63
  · rw [if_pos hfits, minOverride_of_pos (n := least) _ (by omega), Int.toNat_natCast]
    rw [hview, SettingValue.signed_of_lt hfits]
  · rw [if_neg hfits, minOverride_eq_none]
    intro n hn
    rw [hview] at hn
    have hneg := SettingValue.signed_neg_of_le (Nat.le_of_not_lt hfits) hlimit
    cases hn
    exact Int.le_of_lt hneg

/-- When the setting replaces the least abbreviation of every entry: looking a token up under
settings that hold a positive number is looking it up where every entry has this least abbreviation,
exactly if the number fits a signed word or makes no difference to the token. If it fits, a name and
an alias stand for their entries as ever, and a token that begins one name only is accepted if it
has so many characters. -/
theorem lookupWith_replaces_minimum_iff (entries : List (Entry α)) (token : String) {s : Settings}
    (hs : s.minAbbrev = some least) (hpos : 1 ≤ least) (hlimit : least < 2 ^ 64) :
    (((ofList entries).lookupWith token s.view).map (Entry.withMinimum least) =
        ((ofList entries).withMinimum least).lookup token ↔
      least < 2 ^ 63 ∨ (Unclaimed (ofList entries).toList token →
        ∀ e, (ofList entries).candidates token = [e] →
          (e.minAbbrev ≤ token.length ↔ least ≤ token.length))) ∧
    (least < 2 ^ 63 → ∀ e, (ofList entries).lookupWith token s.view = some e ↔
      StandsFor (ofList entries).toList (fun _ => least) token e) ∧
    (2 ^ 63 ≤ least →
      (ofList entries).lookupWith token s.view = (ofList entries).lookup token) := by
  have h := coherent_ofList entries
  generalize ofList entries = r at h
  have hmin := minOverride_view hs hpos hlimit
  by_cases hfits : least < 2 ^ 63
  · rw [if_pos hfits] at hmin
    refine ⟨?_, fun _ e => ?_, fun hle => absurd hfits (Nat.not_lt_of_le hle)⟩
    · rw [lookup_withMinimum, lookupWith_eq_answer, hmin]
      exact iff_of_true rfl (.inl hfits)
    · rw [lookupWith_eq_some_iff h, hmin]
      rfl
  · rw [if_neg hfits] at hmin
    refine ⟨?_, fun hlt => absurd hlt hfits, fun _ => lookupWith_of_no_abbrev hmin⟩
    rw [lookup_withMinimum, lookupWith_eq_answer, hmin, answer_none_eq_answer_some_iff h,
      or_iff_right hfits]

/-- The registry of one entry, "testing", that asks for four characters. -/
def testing : List (Entry Unit) := [⟨"testing", [], 4, true, ()⟩]

/-- Two characters are enough for "testing" under settings that ask for two. -/
theorem lookupWith_replaces_minimum_testing :
    ({ Settings.initial with minAbbrev := some 2 } : Settings).minAbbrev = some 2 ∧
      ((ofList testing).lookupWith "te" { Settings.initial with minAbbrev := some 2 }.view).map
          (Entry.withMinimum 2) =
        ((ofList testing).withMinimum 2).lookup "te" ∧
      ((ofList testing).lookupWith "te" { Settings.initial with minAbbrev := some 2 }.view).isSome =
        true := by
  obtain ⟨hreplaces, -, -⟩ := lookupWith_replaces_minimum_iff testing "te"
    (s := { Settings.initial with minAbbrev := some 2 }) rfl (by decide) (by decide)
  exact ⟨rfl, hreplaces.2 (.inl (by decide)), by decide +kernel⟩

/-- A number that does not fit a signed word leaves "testing" its four characters. -/
theorem lookupWith_keeps_minimum_testing :
    ((ofList testing).lookupWith "test"
        { Settings.initial with minAbbrev := some 9223372036854775808 }.view).isSome = true ∧
      ((ofList testing).withMinimum 9223372036854775808).lookup "test" = none := by
  decide +kernel

end Registry

end BytecodeDebugger
