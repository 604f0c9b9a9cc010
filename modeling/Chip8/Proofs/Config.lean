import Chip8.Config
import Chip8.Proofs.Except
import Mathlib.Tactic.Push

/-!
# Refused configurations

A value that is no configuration is refused with a message: that the document is no mapping, that
its choices are none, which names are unknown, which choice has no truth value, or what is wrong
with the seed. This holds for values of any shape, with one exception. The unknown names are sorted
and joined for their message, and only texts can be. A key of the choices that is no text is no
choice either, so it gets into this list and breaks it: such a document is refused without a
message, whatever else is in it.

A choice is a text, so of the keys that are no choices the texts are exactly those that can be
named, and the exception can be read off the document.

## Main definitions

* `Config.HasUnnamedChoice` — the documents with a key of the choices that is no text

## Main results

* `Choice.ofKey?_eq_some_iff` — choices are texts
* `Config.keyNames?_eq_none_iff` — which keys cannot be named
* `ConfigError.message?_eq_none_iff` — which refusal has no message
* `Config.ofValue_eq_unnameableChoice_iff`, `Config.ofValue_explains` — which documents have none
-/

namespace Chip8

/-! ### Keys -/

/-- Only a text is the same key as a text. -/
theorem Value.sameKey_text_iff {key : Value} {s : String} :
    key.sameKey (.text s) = true ↔ key = .text s := by
  cases key with
  | text t => simp [Value.sameKey, Value.keyInt?]
  | _ => simp [Value.sameKey, Value.keyInt?]

theorem Choice.name_injective : Function.Injective Choice.name := by
  intro c d
  cases c <;> cases d <;> decide

/-- **Choices are texts**, each that of its own name. -/
theorem Choice.ofKey?_eq_some_iff {key : Value} {c : Choice} :
    Choice.ofKey? key = some c ↔ key = .text c.name := by
  have hsound {other : Value} {d : Choice} (h : Choice.ofKey? other = some d) :
      other = .text d.name := by
    rw [Choice.ofKey?] at h
    have hsame := List.find?_some h
    exact Value.sameKey_text_iff.1 hsame
  constructor
  · exact hsound
  · rintro rfl
    cases hfound : Choice.ofKey? (.text c.name) with
    | none =>
      have hall : c ∈ Choice.all := by cases c <;> decide
      exact absurd (Value.sameKey_text_iff.2 rfl) (List.find?_eq_none.1 hfound c hall)
    | some d => rw [Choice.name_injective (Value.text.inj (hsound hfound))]

namespace ConfigError

/-- **Every refusal has a message**, but that of a key that cannot be named. -/
theorem message?_eq_none_iff {reason : ConfigError} :
    reason.message? = none ↔ reason = .unnameableChoice := by
  cases reason with
  | unnameableChoice => exact ⟨fun _ => rfl, fun _ => rfl⟩
  | _ => exact ⟨nofun, nofun⟩

end ConfigError

namespace Config

variable {v : Value} {entries : List (Value × Value)} {keys : List Value}

theorem mem_unknownKeys {key : Value} :
    key ∈ unknownKeys entries ↔
      (∃ value, (key, value) ∈ entries) ∧ ∀ c : Choice, key ≠ .text c.name := by
  have hunknown : (Choice.ofKey? key).isNone = true ↔ ∀ c : Choice, key ≠ .text c.name := by
    rw [Option.isNone_iff_eq_none, Option.eq_none_iff_forall_ne_some]
    exact forall_congr' fun c => not_congr Choice.ofKey?_eq_some_iff
  rw [unknownKeys, List.mem_filter, hunknown, List.mem_map]
  constructor
  · rintro ⟨⟨⟨_, value⟩, hmem, rfl⟩, hkey⟩
    exact ⟨⟨value, hmem⟩, hkey⟩
  · rintro ⟨⟨value, hmem⟩, hkey⟩
    exact ⟨⟨_, hmem, rfl⟩, hkey⟩

/-! ### Names of keys -/

/-- Keys that are not all texts cannot be named. -/
theorem keyNames?_eq_none_iff :
    keyNames? keys = none ↔ ∃ key ∈ keys, ∀ s : String, key ≠ .text s := by
  induction keys with
  | nil => exact ⟨nofun, nofun⟩
  | cons key rest ih =>
    cases key with
    | text s =>
      rw [keyNames?, Option.map_eq_none_iff, ih]
      constructor
      · rintro ⟨other, hother, hkey⟩
        exact ⟨other, List.mem_cons_of_mem _ hother, hkey⟩
      · rintro ⟨other, hother, hkey⟩
        rcases List.mem_cons.1 hother with rfl | hother
        · exact absurd rfl (hkey s)
        · exact ⟨other, hother, hkey⟩
    | _ => exact ⟨fun _ => ⟨_, List.mem_cons_self, nofun⟩, fun _ => rfl⟩

/-! ### Choices -/

/-- Of the entries of choices only values that are no truth values are refused. -/
theorem choose_eq_error {d : Dialect} {reason : ConfigError}
    (h : choose d entries = .error reason) : ∃ c value, reason = .notBoolean c value := by
  induction entries generalizing d with
  | nil => cases h
  | cons entry rest ih =>
    obtain ⟨key, value⟩ := entry
    unfold choose at h
    split at h
    · exact ih h
    · exact ⟨_, _, (Except.error.inj h).symm⟩
    · exact ih h

/-- The keys of some choices are all texts. -/
def NamesAll (entries : List (Value × Value)) : Prop := ∀ e ∈ entries, ∃ s : String, e.1 = .text s

/-- The keys that are no choices can be named if all keys can, since choices are texts. -/
theorem exists_unknown_iff :
    (∃ key ∈ unknownKeys entries, ∀ s : String, key ≠ .text s) ↔ ¬ NamesAll entries := by
  rw [NamesAll]
  push Not
  constructor
  · rintro ⟨key, hkey, htext⟩
    obtain ⟨⟨value, hmem⟩, -⟩ := mem_unknownKeys.1 hkey
    exact ⟨(key, value), hmem, htext⟩
  · rintro ⟨⟨key, value⟩, hmem, htext⟩
    exact ⟨key, mem_unknownKeys.2 ⟨⟨value, hmem⟩, fun c => htext c.name⟩, htext⟩

theorem dialectOfEntries_eq_unnameableChoice_iff :
    dialectOfEntries entries = .error .unnameableChoice ↔ ¬ NamesAll entries := by
  rw [← exists_unknown_iff, ← keyNames?_eq_none_iff, dialectOfEntries]
  cases hunknown : unknownKeys entries with
  | nil =>
    constructor
    · intro h
      obtain ⟨c, value, hreason⟩ := choose_eq_error h
      cases hreason
    · nofun
  | cons key rest =>
    dsimp only
    cases keyNames? (key :: rest) with
    | none => exact ⟨fun _ => rfl, fun _ => rfl⟩
    | some names => exact ⟨nofun, nofun⟩

/-- A value of the choices that is a mapping is void or read entry by entry. -/
theorem dialectOfValue_eq_unnameableChoice_iff :
    dialectOfValue v = .error .unnameableChoice ↔
      ∃ choices, v = .mapping choices ∧ ¬ NamesAll choices := by
  cases v with
  | mapping choices =>
    cases choices with
    | nil =>
      constructor
      · nofun
      · rintro ⟨choices, hchoices, hnames⟩
        obtain rfl := Value.mapping.inj hchoices
        exact absurd (fun e he => absurd he List.not_mem_nil) hnames
    | cons e rest =>
      have hentries : dialectOfValue (.mapping (e :: rest)) = dialectOfEntries (e :: rest) := rfl
      rw [hentries, dialectOfEntries_eq_unnameableChoice_iff]
      constructor
      · intro hnames
        exact ⟨_, rfl, hnames⟩
      · rintro ⟨choices, hchoices, hnames⟩
        obtain rfl := Value.mapping.inj hchoices
        exact hnames
  | _ =>
    constructor
    · intro h
      unfold dialectOfValue at h
      split at h <;> cases h
    · rintro ⟨choices, hchoices, -⟩
      cases hchoices

/-! ### Documents -/

theorem seedOfValue_ne_unnameableChoice : seedOfValue v ≠ .error .unnameableChoice := by
  cases v with
  | text s =>
    rw [seedOfValue]
    cases IntLiteral.read (seedBase s.toList) s.toList with
    | ok n => nofun
    | error reason => nofun
  | _ => nofun

/-- The documents that have a key of the choices which is no text. -/
def HasUnnamedChoice (v : Value) : Prop :=
  ∃ entries choices, v = .mapping entries ∧
    Value.find? "quirks" entries = some (.mapping choices) ∧ ¬ NamesAll choices

/-- **Which documents are refused without a message.** -/
theorem ofValue_eq_unnameableChoice_iff :
    ofValue v = .error .unnameableChoice ↔ HasUnnamedChoice v := by
  cases v with
  | mapping entries =>
    rw [ofValue, Except.bind_eq_error, dialectOfValue_eq_unnameableChoice_iff]
    constructor
    · rintro (⟨choices, hfound, hnames⟩ | ⟨dialect, -, hseed⟩)
      · cases hquirks : Value.find? "quirks" entries with
        | none =>
          rw [hquirks] at hfound
          cases hfound
        | some value =>
          rw [hquirks] at hfound
          exact ⟨entries, choices, rfl, hquirks.trans (congrArg some hfound), hnames⟩
      · rcases Except.bind_eq_error.1 hseed with hseed | ⟨seed, -, hdone⟩
        · exact absurd hseed seedOfValue_ne_unnameableChoice
        · cases hdone
    · rintro ⟨given, choices, hgiven, hfound, hnames⟩
      obtain rfl := Value.mapping.inj hgiven
      exact .inl ⟨choices, by rw [hfound]; rfl, hnames⟩
  | null =>
    constructor
    · nofun
    · rintro ⟨entries, choices, hentries, -⟩
      cases hentries
  | _ =>
    constructor
    · intro h
      cases h
    · rintro ⟨entries, choices, hentries, -⟩
      cases hentries

/-- **Every document is read or refused with a message**, but those with a key of the choices that
is no text. These are refused without one, whatever else they hold. -/
theorem ofValue_explains (v : Value) :
    (¬ HasUnnamedChoice v →
      (∃ config, ofValue v = .ok config) ∨
        ∃ reason message, ofValue v = .error reason ∧ reason.message? = some message) ∧
      (HasUnnamedChoice v → ofValue v = .error .unnameableChoice) := by
  refine ⟨fun hnamed => ?_, ofValue_eq_unnameableChoice_iff.2⟩
  cases hread : ofValue v with
  | ok config => exact .inl ⟨config, rfl⟩
  | error reason =>
    have hreason : reason.message? ≠ none := by
      intro hnone
      obtain rfl := ConfigError.message?_eq_none_iff.1 hnone
      exact hnamed (ofValue_eq_unnameableChoice_iff.1 hread)
    obtain ⟨message, hmessage⟩ := Option.ne_none_iff_exists'.1 hreason
    exact .inr ⟨reason, message, rfl, hmessage⟩

/-- A document with two unknown choices, a known one without a truth value, and no seed either. -/
def misspelt : Value :=
  .mapping
    [(.text "quirks", .mapping
      [(.text "wrap", .int 3), (.text "shift_uses_vy", .int 5), (.text "clip", .null)]),
     (.text "seed", .list [])]

/-- A document whose only choice is the null value. -/
def namelessChoice : Value :=
  .mapping [(.text "quirks", .mapping [(.null, .bool true)])]

theorem hasUnnamedChoice_namelessChoice : HasUnnamedChoice namelessChoice := by
  refine ⟨_, _, rfl, rfl, fun hnames => ?_⟩
  obtain ⟨s, hs⟩ := hnames _ List.mem_cons_self
  cases hs

theorem ofValue_explains_misspelt :
    ¬ HasUnnamedChoice misspelt ∧
      ((∃ config, ofValue misspelt = .ok config) ∨
        ∃ reason message, ofValue misspelt = .error reason ∧ reason.message? = some message) ∧
      HasUnnamedChoice namelessChoice ∧ ofValue namelessChoice = .error .unnameableChoice := by
  have hnamed : ¬ HasUnnamedChoice misspelt := by
    rintro ⟨entries, choices, hentries, hfound, hnames⟩
    obtain rfl := Value.mapping.inj hentries
    obtain rfl := Value.mapping.inj (Option.some.inj hfound)
    refine hnames fun e he => ?_
    simp only [List.mem_cons, List.not_mem_nil, or_false] at he
    rcases he with rfl | rfl | rfl <;> exact ⟨_, rfl⟩
  exact ⟨hnamed, (ofValue_explains misspelt).1 hnamed, hasUnnamedChoice_namelessChoice,
    (ofValue_explains namelessChoice).2 hasUnnamedChoice_namelessChoice⟩

/-- **A document that is refused without a message.** -/
theorem ofValue_namelessChoice :
    ¬ ((∃ config, ofValue namelessChoice = .ok config) ∨
      ∃ reason message, ofValue namelessChoice = .error reason ∧
        reason.message? = some message) := by
  have hrefused := ofValue_eq_unnameableChoice_iff.2 hasUnnamedChoice_namelessChoice
  rintro (⟨config, hconfig⟩ | ⟨reason, message, hreason, hmessage⟩)
  · rw [hrefused] at hconfig
    cases hconfig
  · rw [hrefused] at hreason
    obtain rfl := Except.error.inj hreason
    cases hmessage

end Config

end Chip8
