import Chip8.Proofs.Config
import Mathlib.Tactic.ByContra

/-!
# Accepted configurations

What a value must be like to be a configuration, and which configuration it then is, said without
the checks that the reading makes. The value is null, or a mapping whose choices are absent, null or
a mapping of their own, with known names and truth values only, and whose seed is absent, null, an
integer or the text of one.

The reading accepts exactly these values, with one exception. Choices that count as nothing are not
looked at any further, and besides null and the empty mapping these are the truth value false, the
zeros, the empty text and the empty list. A document with such choices is read as if it had none,
although they are neither null nor a mapping.

## Main definitions

* `Choice.get` — the setting of a choice in a dialect
* `Config.Gives`, `Config.Settles` — what the entries of a mapping say about a choice, and about a
  dialect
* `Config.Describes` — the values that are configurations, and of which
* `Config.HasVoidChoices` — the documents whose choices count as nothing and should not

## Main results

* `Config.dialectOfEntries_eq_ok_iff`, `Config.seedOfValue_eq_ok_iff` — accepted choices and seeds
* `Config.ofValue_accepts` — accepted documents
-/

namespace Chip8

/-! ### Choices -/

namespace Choice

/-- The setting of a choice in a dialect. -/
def get (c : Choice) (d : Dialect) : Bool :=
  match c with
  | .shiftUsesVy => d.shiftUsesVy
  | .keyWaitOnRelease => d.keyWaitOnRelease
  | .loadStoreIncrementsIndex => d.loadStoreIncrementsIndex

/-- **A choice that is made is seen**, and the others are as before. -/
theorem get_set (c e : Choice) (d : Dialect) (on : Bool) :
    e.get (c.set d on) = if c = e then on else e.get d := by
  cases c <;> cases e <;> rfl

/-- A dialect is told by its choices. -/
theorem eq_of_get_eq {d e : Dialect} (h : ∀ c : Choice, c.get d = c.get e) : d = e := by
  have hshift : d.shiftUsesVy = e.shiftUsesVy := h .shiftUsesVy
  have hwait : d.keyWaitOnRelease = e.keyWaitOnRelease := h .keyWaitOnRelease
  have hindex : d.loadStoreIncrementsIndex = e.loadStoreIncrementsIndex :=
    h .loadStoreIncrementsIndex
  cases d
  cases e
  cases hshift
  cases hwait
  cases hindex
  rfl

end Choice

namespace Config

variable {v : Value} {choices : List (Value × Value)} {base d : Dialect} {c : Choice} {on : Bool}

/-! ### Settings -/

/-- The entries give a choice a truth value. Of several entries of its key the last one counts. -/
def Gives (choices : List (Value × Value)) (c : Choice) (on : Bool) : Prop :=
  ∃ before after, choices = before ++ (.text c.name, .bool on) :: after ∧
    ∀ e ∈ after, e.1 ≠ .text c.name

/-- The entries make their choices in a dialect: all of them are choices with truth values, each
choice is set as it is given, and those that are not there are as before. -/
structure Settles (base : Dialect) (choices : List (Value × Value)) (d : Dialect) : Prop where
  known : ∀ e ∈ choices, ∃ (c : Choice) (on : Bool), e = (.text c.name, .bool on)
  given : ∀ c on, Gives choices c on → c.get d = on
  absent : ∀ c : Choice, (∀ e ∈ choices, e.1 ≠ .text c.name) → c.get d = c.get base

theorem settles_nil_iff : Settles base [] d ↔ base = d := by
  constructor
  · intro h
    exact Choice.eq_of_get_eq fun c => (h.absent c fun e he => absurd he List.not_mem_nil).symm
  · rintro rfl
    refine ⟨fun e he => absurd he List.not_mem_nil, fun c on hgives => ?_, fun _ _ => rfl⟩
    obtain ⟨before, after, hnil, -⟩ := hgives
    cases before <;> cases hnil

/-- What the rest of the entries gives is given by all of them. -/
theorem Gives.cons {e : Value × Value} (h : Gives choices c on) : Gives (e :: choices) c on := by
  obtain ⟨before, after, rfl, hafter⟩ := h
  exact ⟨e :: before, after, rfl, hafter⟩

/-- What is given is given by the rest of the entries, or by the first of them if the rest is
silent. -/
theorem Gives.of_cons {e : Value × Value} (h : Gives (e :: choices) c on) :
    Gives choices c on ∨
      e = (.text c.name, .bool on) ∧ ∀ other ∈ choices, other.1 ≠ .text c.name := by
  obtain ⟨before, after, heq, hafter⟩ := h
  cases before with
  | nil =>
    obtain ⟨rfl, rfl⟩ := List.cons.inj heq
    exact .inr ⟨rfl, hafter⟩
  | cons first before =>
    obtain ⟨rfl, rfl⟩ := List.cons.inj heq
    exact .inl ⟨before, after, rfl, hafter⟩

/-- The first entry makes its choice before the others do. -/
theorem settles_cons_iff :
    Settles base ((.text c.name, .bool on) :: choices) d ↔ Settles (c.set base on) choices d := by
  have hkey {other : Choice} : Value.text c.name ≠ .text other.name ↔ c ≠ other := by
    rw [ne_eq, Value.text.injEq, Choice.name_injective.eq_iff]
  constructor
  · intro h
    refine ⟨fun e he => h.known e (List.mem_cons_of_mem _ he), fun other set hgives =>
      h.given other set hgives.cons, fun other hrest => ?_⟩
    rw [Choice.get_set]
    by_cases hsame : c = other
    · subst hsame
      rw [if_pos rfl]
      exact h.given c on ⟨[], choices, rfl, hrest⟩
    · rw [if_neg hsame]
      refine h.absent other fun e he => ?_
      rcases List.mem_cons.1 he with rfl | he
      · exact hkey.2 hsame
      · exact hrest e he
  · intro h
    refine ⟨fun e he => ?_, fun other set hgives => ?_, fun other hall => ?_⟩
    · rcases List.mem_cons.1 he with rfl | he
      · exact ⟨c, on, rfl⟩
      · exact h.known e he
    · rcases hgives.of_cons with hgives | ⟨heq, hrest⟩
      · exact h.given other set hgives
      · obtain ⟨hname, hset⟩ := Prod.mk.inj heq
        obtain rfl := Choice.name_injective (Value.text.inj hname)
        obtain rfl := Value.bool.inj hset
        rw [h.absent c hrest, Choice.get_set, if_pos rfl]
    · have hne : c ≠ other := hkey.1 (hall _ List.mem_cons_self)
      rw [h.absent other fun e he => hall e (List.mem_cons_of_mem _ he), Choice.get_set,
        if_neg hne]

/-- Entries whose keys are choices are read exactly when they make their choices. -/
theorem choose_eq_ok_iff (h : ∀ e ∈ choices, ∃ c : Choice, e.1 = .text c.name) :
    choose base choices = .ok d ↔ Settles base choices d := by
  induction choices generalizing base with
  | nil =>
    rw [settles_nil_iff, choose]
    exact ⟨Except.ok.inj, congrArg Except.ok⟩
  | cons entry rest ih =>
    obtain ⟨key, value⟩ := entry
    obtain ⟨c, rfl⟩ : ∃ c : Choice, key = .text c.name := h _ List.mem_cons_self
    have hkey : Choice.ofKey? (.text c.name) = some c := Choice.ofKey?_eq_some_iff.2 rfl
    have hrest (base : Dialect) : choose base rest = .ok d ↔ Settles base rest d :=
      ih fun e he => h e (List.mem_cons_of_mem _ he)
    cases value with
    | bool on =>
      have hchoose : choose base ((.text c.name, .bool on) :: rest) =
          choose (c.set base on) rest := by
        simp only [choose, hkey]
      rw [hchoose, settles_cons_iff, hrest]
    | _ =>
      constructor
      · intro hread
        simp only [choose, hkey] at hread
        cases hread
      · intro hsettles
        obtain ⟨other, on, heq⟩ := hsettles.known _ List.mem_cons_self
        cases (Prod.mk.inj heq).2

/-- **Which choices are accepted**, and the dialect that they give. -/
theorem dialectOfEntries_eq_ok_iff : dialectOfEntries choices = .ok d ↔ Settles {} choices d := by
  rw [dialectOfEntries]
  cases hunknown : unknownKeys choices with
  | nil =>
    refine choose_eq_ok_iff fun e he => ?_
    by_contra hnone
    have hmem : e.1 ∈ unknownKeys choices :=
      mem_unknownKeys.2 ⟨⟨e.2, he⟩, fun c hc => hnone ⟨c, hc⟩⟩
    rw [hunknown] at hmem
    exact absurd hmem List.not_mem_nil
  | cons key rest =>
    have hmem : key ∈ unknownKeys choices := hunknown ▸ List.mem_cons_self
    obtain ⟨⟨value, hentry⟩, hkey⟩ := mem_unknownKeys.1 hmem
    constructor
    · intro h
      dsimp only at h
      split at h <;> cases h
    · intro hsettles
      obtain ⟨c, on, heq⟩ := hsettles.known _ hentry
      exact absurd (Prod.mk.inj heq).1 (hkey c)

/-- A mapping of choices, the empty one included, is read entry by entry. -/
theorem dialectOfValue_mapping_eq_ok_iff :
    dialectOfValue (.mapping choices) = .ok d ↔ Settles {} choices d := by
  rw [← dialectOfEntries_eq_ok_iff]
  cases choices with
  | nil => exact Iff.rfl
  | cons e rest => exact Iff.rfl

/-! ### Documents -/

/-- The choices of a document, absent or with a value, and the dialect that they describe. -/
inductive DescribesDialect : Option Value → Dialect → Prop where
  | absent : DescribesDialect none {}
  | null : DescribesDialect (some .null) {}
  | mapping {choices : List (Value × Value)} {d : Dialect} (h : Settles {} choices d) :
    DescribesDialect (some (.mapping choices)) d

/-- The seed of a document, absent or with a value, and the seed that it describes. A text is read
in base sixteen if it begins with `0x`, and in base ten otherwise. -/
inductive DescribesSeed : Option Value → Option Int → Prop where
  | absent : DescribesSeed none none
  | null : DescribesSeed (some .null) none
  | int (n : Int) : DescribesSeed (some (.int n)) (some n)
  | hexadecimal {s : String} {n : Int} (hbegins : ['0', 'x'] <+: s.toList)
      (hread : IntLiteral.read 16 s.toList = .ok n) : DescribesSeed (some (.text s)) (some n)
  | decimal {s : String} {n : Int} (hbegins : ¬ ['0', 'x'] <+: s.toList)
      (hread : IntLiteral.read 10 s.toList = .ok n) : DescribesSeed (some (.text s)) (some n)

/-- The values that are configurations, and of which. -/
inductive Describes : Value → Config → Prop where
  | null : Describes .null ⟨{}, none⟩
  | mapping {entries : List (Value × Value)} {dialect : Dialect} {seed : Option Int}
      (hdialect : DescribesDialect (Value.find? "quirks" entries) dialect)
      (hseed : DescribesSeed (Value.find? "seed" entries) seed) :
    Describes (.mapping entries) ⟨dialect, seed⟩

/-- Choices that describe a dialect are null or a mapping. -/
theorem DescribesDialect.null_or_mapping {value : Value} (h : DescribesDialect (some value) d) :
    value = .null ∨ ∃ choices, value = .mapping choices := by
  cases h with
  | null => exact .inl rfl
  | mapping h => exact .inr ⟨_, rfl⟩

/-- The documents whose choices count as nothing, although they are neither null nor a mapping. -/
def HasVoidChoices (v : Value) : Prop :=
  ∃ entries value, v = .mapping entries ∧ Value.find? "quirks" entries = some value ∧
    value.isVoid = true ∧ value ≠ .null ∧ ∀ choices, value ≠ .mapping choices

variable {value? : Option Value} {seed : Option Int}

/-- The choices of a document are accepted as described, if they do not count as nothing. -/
theorem dialectOfValue_eq_ok_iff
    (h : ∀ value, value? = some value → value.isVoid = true →
      value = .null ∨ ∃ choices, value = .mapping choices) :
    dialectOfValue (value?.getD .null) = .ok d ↔ DescribesDialect value? d := by
  cases value? with
  | none =>
    constructor
    · rintro ⟨⟩
      exact .absent
    · rintro ⟨⟩
      rfl
  | some value =>
    cases value with
    | null =>
      constructor
      · rintro ⟨⟩
        exact .null
      · rintro ⟨⟩
        rfl
    | mapping choices =>
      show dialectOfValue (.mapping choices) = .ok d ↔ _
      rw [dialectOfValue_mapping_eq_ok_iff]
      constructor
      · exact .mapping
      · rintro ⟨⟩
        assumption
    | _ =>
      constructor
      · intro hread
        unfold dialectOfValue at hread
        split at hread
        · rename_i hvoid
          rcases h _ rfl hvoid with heq | ⟨choices, heq⟩
          · cases heq
          · cases heq
        · cases hread
      · rintro ⟨⟩

theorem seedBase_of_begins {cs : List Char} (h : ['0', 'x'] <+: cs) : seedBase cs = 16 := by
  obtain ⟨rest, rfl⟩ := h
  rfl

theorem seedBase_of_not_begins {cs : List Char} (h : ¬ ['0', 'x'] <+: cs) : seedBase cs = 10 := by
  unfold seedBase
  split
  · rename_i rest
    exact absurd ⟨rest, rfl⟩ h
  · rfl

theorem seedOfValue_text_eq_ok_iff {s : String} :
    seedOfValue (.text s) = .ok seed ↔
      ∃ n, seed = some n ∧ IntLiteral.read (seedBase s.toList) s.toList = .ok n := by
  rw [seedOfValue]
  cases IntLiteral.read (seedBase s.toList) s.toList with
  | ok n =>
    constructor
    · rintro ⟨⟩
      exact ⟨n, rfl, rfl⟩
    · rintro ⟨m, rfl, ⟨⟩⟩
      rfl
  | error reason =>
    constructor
    · rintro ⟨⟩
    · rintro ⟨n, -, ⟨⟩⟩

/-- **Which seeds are accepted**, and which seed they are. -/
theorem seedOfValue_eq_ok_iff :
    seedOfValue (value?.getD .null) = .ok seed ↔ DescribesSeed value? seed := by
  cases value? with
  | none =>
    constructor
    · rintro ⟨⟩
      exact .absent
    · rintro ⟨⟩
      rfl
  | some value =>
    cases value with
    | null =>
      constructor
      · rintro ⟨⟩
        exact .null
      · rintro ⟨⟩
        rfl
    | int n =>
      constructor
      · rintro ⟨⟩
        exact .int n
      · rintro ⟨⟩
        rfl
    | text s =>
      show seedOfValue (.text s) = .ok seed ↔ _
      rw [seedOfValue_text_eq_ok_iff]
      constructor
      · rintro ⟨n, rfl, hread⟩
        by_cases hbegins : ['0', 'x'] <+: s.toList
        · rw [seedBase_of_begins hbegins] at hread
          exact .hexadecimal hbegins hread
        · rw [seedBase_of_not_begins hbegins] at hread
          exact .decimal hbegins hread
      · rintro (_ | _ | _ | ⟨hbegins, hread⟩ | ⟨hbegins, hread⟩)
        · exact ⟨_, rfl, by rwa [seedBase_of_begins hbegins]⟩
        · exact ⟨_, rfl, by rwa [seedBase_of_not_begins hbegins]⟩
    | _ =>
      constructor
      · rintro ⟨⟩
      · rintro ⟨⟩

/-- A mapping is accepted when its choices and its seed are. -/
theorem ofValue_mapping_eq_ok_iff {entries : List (Value × Value)} {config : Config} :
    ofValue (.mapping entries) = .ok config ↔
      dialectOfValue ((Value.find? "quirks" entries).getD .null) = .ok config.dialect ∧
        DescribesSeed (Value.find? "seed" entries) config.seed := by
  rw [← seedOfValue_eq_ok_iff, ofValue, Except.bind_eq_ok]
  constructor
  · rintro ⟨dialect, hdialect, hread⟩
    obtain ⟨seed, hseed, hdone⟩ := Except.bind_eq_ok.1 hread
    cases hdone
    exact ⟨hdialect, hseed⟩
  · rintro ⟨hdialect, hseed⟩
    exact ⟨config.dialect, hdialect, Except.bind_eq_ok.2 ⟨config.seed, hseed, rfl⟩⟩

theorem describes_mapping_iff {entries : List (Value × Value)} {config : Config} :
    Describes (.mapping entries) config ↔
      DescribesDialect (Value.find? "quirks" entries) config.dialect ∧
        DescribesSeed (Value.find? "seed" entries) config.seed := by
  constructor
  · rintro (_ | ⟨hdialect, hseed⟩)
    exact ⟨hdialect, hseed⟩
  · rintro ⟨hdialect, hseed⟩
    exact .mapping hdialect hseed

/-- A document whose choices count as nothing describes no configuration. -/
theorem HasVoidChoices.not_describes (h : HasVoidChoices v) (config : Config) :
    ¬ Describes v config := by
  obtain ⟨entries, value, rfl, hfound, -, hnull, hmapping⟩ := h
  rw [describes_mapping_iff, hfound]
  rintro ⟨hdialect, -⟩
  rcases hdialect.null_or_mapping with rfl | ⟨choices, rfl⟩
  · exact hnull rfl
  · exact hmapping choices rfl

/-- **Accepted documents.** The values that are read are those that describe a configuration, and
they are read as that one, but for the documents whose choices count as nothing. These describe no
configuration; they are read as the usual dialect, with the seed that they describe. -/
theorem ofValue_accepts (v : Value) (config : Config) :
    (¬ HasVoidChoices v → (ofValue v = .ok config ↔ Describes v config)) ∧
      (HasVoidChoices v → ¬ Describes v config ∧
        (ofValue v = .ok config ↔ config.dialect = {} ∧
          ∃ entries, v = .mapping entries ∧
            DescribesSeed (Value.find? "seed" entries) config.seed)) := by
  constructor
  · intro hvoid
    cases v with
    | null =>
      constructor
      · rintro ⟨⟩
        exact .null
      · rintro ⟨⟩
        rfl
    | mapping entries =>
      rw [ofValue_mapping_eq_ok_iff, describes_mapping_iff, dialectOfValue_eq_ok_iff]
      intro value hfound hempty
      by_contra hother
      rw [not_or] at hother
      exact hvoid ⟨entries, value, rfl, hfound, hempty, hother.1, not_exists.1 hother.2⟩
    | _ =>
      constructor
      · rintro ⟨⟩
      · rintro ⟨⟩
  · intro hvoid
    refine ⟨hvoid.not_describes config, ?_⟩
    obtain ⟨entries, value, rfl, hfound, hempty, -, -⟩ := hvoid
    have hread : dialectOfValue ((some value).getD .null) = .ok {} := if_pos hempty
    rw [ofValue_mapping_eq_ok_iff, hfound, hread]
    constructor
    · rintro ⟨hdialect, hseed⟩
      exact ⟨(Except.ok.inj hdialect).symm, entries, rfl, hseed⟩
    · rintro ⟨hdialect, others, hothers, hseed⟩
      obtain rfl := Value.mapping.inj hothers
      exact ⟨congrArg Except.ok hdialect.symm, hseed⟩

/-- A document with two of the choices, against their usual settings, and a seed in base sixteen. -/
def cosmac : Value :=
  .mapping
    [(.text "seed", .text "0x_1f"),
     (.text "quirks", .mapping
      [(.text "load_store_increments_index", .bool false), (.text "shift_uses_vy", .bool true)])]

/-- A document whose choices are an empty list, with a seed in base ten. -/
def listOfChoices : Value :=
  .mapping [(.text "quirks", .list []), (.text "seed", .text "-7")]

theorem hasVoidChoices_listOfChoices : HasVoidChoices listOfChoices :=
  ⟨_, _, rfl, rfl, rfl, nofun, nofun⟩

theorem ofValue_accepts_cosmac :
    ¬ HasVoidChoices cosmac ∧ Describes cosmac ⟨⟨true, false, false⟩, some 31⟩ ∧
      HasVoidChoices listOfChoices ∧
      (ofValue listOfChoices = .ok ⟨{}, some (-7)⟩ ↔ ({} : Dialect) = {} ∧
        ∃ entries, listOfChoices = .mapping entries ∧
          DescribesSeed (Value.find? "seed" entries) (some (-7))) := by
  have hvoid : ¬ HasVoidChoices cosmac := by
    rintro ⟨entries, value, hentries, hfound, -, -, hmapping⟩
    obtain rfl := Value.mapping.inj hentries
    exact hmapping _ (Option.some.inj hfound).symm
  have hread : ofValue cosmac = .ok ⟨⟨true, false, false⟩, some 31⟩ := rfl
  exact ⟨hvoid, ((ofValue_accepts cosmac _).1 hvoid).1 hread, hasVoidChoices_listOfChoices,
    ((ofValue_accepts listOfChoices _).2 hasVoidChoices_listOfChoices).2⟩

/-- **A list of choices is accepted**, although it describes no configuration. -/
theorem ofValue_listOfChoices :
    ofValue listOfChoices = .ok ⟨{}, some (-7)⟩ ∧ ∀ config, ¬ Describes listOfChoices config :=
  ⟨rfl, hasVoidChoices_listOfChoices.not_describes⟩

end Config

end Chip8
