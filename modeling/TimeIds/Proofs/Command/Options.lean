import Mathlib.Data.List.Forall2
import TimeIds.Command.Options
import TimeIds.Proofs.Text.Decimal

/-!
# The options of a command as units

Arguments are options if they are units one behind another: `--json` alone, or a flag and a number
for it. That is said here without the reader. The reader takes units off the front for as long as
one stands there (`read_append`), and where none does it is stuck, for a reason that the next two
arguments decide (`Stuck`). Every list of arguments is units up to its end or up to such a place
(`spelled_or_stuck`), so the outcome is settled by how the units fall.

* **`Options.foldl_apply`** – what the units make of the defaults, option by option;
* **`stuck_iff`** – a list in which no unit stands in front;
* **`options_are_units`** – which arguments are options, what they say, and why others are none.
-/

namespace TimeIds.Command

/-! ## Units -/

/-- One setting of one option. -/
inductive Setting
  | json
  | suffixDigits (n : Nat)
  | offset (millis : Millis)
  | count (n : Nat)

/-- The spellings of the flags. Only some commands have a count. -/
inductive Flag.Spelled (allowCount : Bool) : Flag → String → Prop
  | suffix : Spelled allowCount .suffix "--postfix"
  | shortSuffix : Spelled allowCount .suffix "--P"
  | offset : Spelled allowCount .offset "--offset"
  | count (h : allowCount = true) : Spelled allowCount .count "--count"

/-- The values that a flag takes: words for the suffix and the count, signed ones for the offset. -/
inductive Flag.Takes : Flag → String → Setting → Prop
  | suffix {value : String} {n : Nat} (h : Text.WritesNatural value n) (hword : n < 2 ^ 64) :
      Takes .suffix value (.suffixDigits n)
  | offset {value : String} {millis : Millis} (h : Text.WritesInteger value millis.toInt) :
      Takes .offset value (.offset millis)
  | count {value : String} {n : Nat} (h : Text.WritesNatural value n) (hword : n < 2 ^ 64) :
      Takes .count value (.count n)

/-- The arguments are a unit that makes the setting. -/
inductive Setting.Unit (allowCount : Bool) : Setting → List String → Prop
  | json : Unit allowCount .json ["--json"]
  | value {flag : Flag} {name value : String} {setting : Setting}
      (hname : flag.Spelled allowCount name) (hvalue : flag.Takes value setting) :
      Unit allowCount setting [name, value]

/-- The arguments are units, one for each of the settings. -/
def Spelled (allowCount : Bool) (settings : List Setting) (arguments : List String) : Prop :=
  ∃ units, List.Forall₂ (Setting.Unit allowCount) settings units ∧ arguments = units.flatten

/-- The reader can take no unit off the front of the arguments, and what it says then. -/
inductive Stuck (allowCount : Bool) : List String → String → Prop
  | unknownFlag {argument : String} {rest : List String}
      (hflag : ∀ flag : Flag, ¬ flag.Spelled allowCount argument) (hjson : argument ≠ "--json") :
      Stuck allowCount (argument :: rest) ("unknown flag: " ++ argument)
  | missingValue {flag : Flag} {name : String} (hname : flag.Spelled allowCount name) :
      Stuck allowCount [name] ("missing value for " ++ flag.name)
  | badInteger {flag : Flag} {name value : String} {rest : List String}
      (hname : flag.Spelled allowCount name) (hvalue : ∀ setting, ¬ flag.Takes value setting) :
      Stuck allowCount (name :: value :: rest) ("invalid integer for " ++ flag.name)

/-! ## What settings make of options -/

namespace Setting

/-- The flag of a setting; `--json` has none. -/
def flag? : Setting → Option Flag
  | json => none
  | suffixDigits _ => some .suffix
  | offset _ => some .offset
  | count _ => some .count

def suffixDigits? : Setting → Option Nat
  | suffixDigits n => some n
  | _ => none

def offset? : Setting → Option Millis
  | offset millis => some millis
  | _ => none

def count? : Setting → Option Nat
  | count n => some n
  | _ => none

def isJson : Setting → Bool
  | json => true
  | _ => false

/-- The options with one setting more. -/
def apply (o : Options) : Setting → Options
  | json => { o with json := true }
  | suffixDigits n => { o with suffixDigits := n }
  | offset millis => { o with offset := some millis }
  | count n => { o with count := n }

/-! ### Settings of one flag -/

theorem flag?_of_suffixDigits? {setting : Setting} {n : Nat}
    (h : setting.suffixDigits? = some n) : setting.flag? = some .suffix := by
  cases setting with
  | suffixDigits => rfl
  | _ => cases h

theorem flag?_of_offset? {setting : Setting} {millis : Millis}
    (h : setting.offset? = some millis) : setting.flag? = some .offset := by
  cases setting with
  | offset => rfl
  | _ => cases h

theorem flag?_of_count? {setting : Setting} {n : Nat}
    (h : setting.count? = some n) : setting.flag? = some .count := by
  cases setting with
  | count => rfl
  | _ => cases h

/-- What is read off settings of one flag alone does not see the others. -/
theorem filterMap_eq_of_flag {α : Type} {flag : Option Flag} {read : Setting → Option α}
    (hread : ∀ {setting a}, read setting = some a → setting.flag? = flag)
    (settings : List Setting) :
    settings.filterMap read = (settings.filter (·.flag? = flag)).filterMap read := by
  rw [List.filterMap_filter]
  apply List.filterMap_congr
  intro setting _
  cases hvalue : read setting with
  | none => simp
  | some a => simp [hread hvalue]

/-- Whether `--json` is given is read off the settings without a flag. -/
theorem any_isJson (settings : List Setting) :
    settings.any isJson = !(settings.filter (·.flag? = none)).isEmpty := by
  induction settings with
  | nil => rfl
  | cons setting settings ih => cases setting <;> simp [isJson, flag?, ih]

end Setting

namespace Options

/-- The options under settings: for each option the last of its settings, and otherwise what it is
without any. -/
def under (o : Options) (settings : List Setting) : Options where
  suffixDigits := (settings.filterMap Setting.suffixDigits?).getLast?.getD o.suffixDigits
  offset := (settings.filterMap Setting.offset?).getLast?.or o.offset
  count := (settings.filterMap Setting.count?).getLast?.getD o.count
  json := settings.any Setting.isJson || o.json

/-- Settings that are made one after the other, later ones over earlier ones. -/
theorem foldl_apply (o : Options) (settings : List Setting) :
    settings.foldl Setting.apply o = o.under settings := by
  induction settings generalizing o with
  | nil => simp [under]
  | cons setting settings ih =>
    rw [List.foldl_cons, ih]
    cases setting <;>
      simp [under, Setting.apply, Setting.suffixDigits?, Setting.offset?, Setting.count?,
        Setting.isJson, List.getLast?_cons]

/-- Settings of different options may change places. -/
theorem under_congr {settings settings' : List Setting} (o : Options)
    (h : ∀ flag, settings.filter (·.flag? = flag) = settings'.filter (·.flag? = flag)) :
    o.under settings = o.under settings' := by
  have hsuffix : settings.filterMap Setting.suffixDigits? =
      settings'.filterMap Setting.suffixDigits? := by
    rw [Setting.filterMap_eq_of_flag Setting.flag?_of_suffixDigits?, h,
      ← Setting.filterMap_eq_of_flag Setting.flag?_of_suffixDigits?]
  have hoffset : settings.filterMap Setting.offset? = settings'.filterMap Setting.offset? := by
    rw [Setting.filterMap_eq_of_flag Setting.flag?_of_offset?, h,
      ← Setting.filterMap_eq_of_flag Setting.flag?_of_offset?]
  have hcount : settings.filterMap Setting.count? = settings'.filterMap Setting.count? := by
    rw [Setting.filterMap_eq_of_flag Setting.flag?_of_count?, h,
      ← Setting.filterMap_eq_of_flag Setting.flag?_of_count?]
  unfold under
  rw [hsuffix, hoffset, hcount, Setting.any_isJson, Setting.any_isJson, h]

end Options

/-! ## The reader -/

section Reader

variable {allowCount : Bool} {flag : Flag} {setting : Setting} {settings : List Setting}
  {argument value text : String} {unit front rest arguments : List String} {o o' : Options}

/-- The reader knows exactly the spellings of the flags. -/
theorem ofText?_eq_some_iff :
    Flag.ofText? allowCount argument = some flag ↔ flag.Spelled allowCount argument := by
  constructor
  · intro h
    unfold Flag.ofText? at h
    split at h
    · next hsuffix =>
      cases h
      rcases hsuffix with rfl | rfl
      · exact .suffix
      · exact .shortSuffix
    · split at h
      · next hoffset =>
        cases h
        rw [hoffset]
        exact .offset
      · split at h
        · next hcount =>
          cases h
          rw [hcount.1]
          exact .count hcount.2
        · cases h
  · intro h
    cases h with
    | suffix => rfl
    | shortSuffix => rfl
    | offset => rfl
    | count hallow =>
      rw [hallow]
      rfl

/-- An argument spells one flag at most. -/
theorem Flag.Spelled.unique {flag' : Flag} (h : flag.Spelled allowCount argument)
    (h' : flag'.Spelled allowCount argument) : flag = flag' := by
  rw [← ofText?_eq_some_iff] at h h'
  rw [h] at h'
  exact Option.some.inj h'

theorem ofText?_json (allowCount : Bool) : Flag.ofText? allowCount "--json" = none := by
  cases allowCount <;> rfl

/-- A value sets the option of its flag if the flag takes it. -/
theorem set?_eq_some_iff :
    o.set? flag value = some o' ↔ ∃ setting, flag.Takes value setting ∧ o' = setting.apply o := by
  unfold Options.set?
  cases flag with
  | suffix =>
    simp only [Option.map_eq_some_iff, Text.natural?_eq_some_iff]
    constructor
    · rintro ⟨n, ⟨hn, hword⟩, rfl⟩
      exact ⟨_, .suffix hn hword, rfl⟩
    · rintro ⟨_, htakes, rfl⟩
      cases htakes with
      | suffix hn hword => exact ⟨_, ⟨hn, hword⟩, rfl⟩
  | offset =>
    simp only [Option.map_eq_some_iff, Text.integer?_eq_some_iff]
    constructor
    · rintro ⟨millis, hmillis, rfl⟩
      exact ⟨_, .offset hmillis, rfl⟩
    · rintro ⟨_, htakes, rfl⟩
      cases htakes with
      | offset hmillis => exact ⟨_, hmillis, rfl⟩
  | count =>
    simp only [Option.map_eq_some_iff, Text.natural?_eq_some_iff]
    constructor
    · rintro ⟨n, ⟨hn, hword⟩, rfl⟩
      exact ⟨_, .count hn hword, rfl⟩
    · rintro ⟨_, htakes, rfl⟩
      cases htakes with
      | count hn hword => exact ⟨_, ⟨hn, hword⟩, rfl⟩

/-- A unit in front is read as its setting. -/
theorem read_unit (hunit : setting.Unit allowCount unit) (o : Options) (rest : List String) :
    Options.read allowCount o (unit ++ rest) = Options.read allowCount (setting.apply o) rest := by
  cases hunit with
  | json =>
    rw [List.singleton_append, Options.read, ofText?_json]
    rfl
  | @value flag name value _ hname hvalue =>
    have hset : o.set? flag value = some (setting.apply o) :=
      set?_eq_some_iff.2 ⟨setting, hvalue, rfl⟩
    rw [List.cons_append, List.singleton_append, Options.read, ofText?_eq_some_iff.2 hname]
    dsimp only
    rw [hset]

/-- **Units in front are read as their settings**, one after the other. -/
theorem read_append (hfront : Spelled allowCount settings front) (o : Options)
    (rest : List String) :
    Options.read allowCount o (front ++ rest) =
      Options.read allowCount (o.under settings) rest := by
  obtain ⟨units, hunits, rfl⟩ := hfront
  rw [← Options.foldl_apply]
  -- induction on the units, with the options so far as the reader carries them
  induction hunits generalizing o with
  | nil => rfl
  | cons hunit _ ih =>
    rw [List.flatten_cons, List.append_assoc, read_unit hunit, ih, List.foldl_cons]

/-- Where the reader is stuck it says why, whatever options it has read so far. -/
theorem read_of_stuck (hrest : Stuck allowCount rest text) (o : Options) :
    (Options.read allowCount o rest).mapError OptionFault.message = .error text := by
  cases hrest with
  | @unknownFlag argument rest hflag hjson =>
    have hnone : Flag.ofText? allowCount argument = none := by
      rw [Option.eq_none_iff_forall_ne_some]
      exact fun flag hsome => hflag flag (ofText?_eq_some_iff.1 hsome)
    rw [Options.read, hnone]
    dsimp only
    rw [if_neg hjson]
    rfl
  | missingValue hname =>
    rw [Options.read, ofText?_eq_some_iff.2 hname]
    rfl
  | @badInteger flag name value rest hname hvalue =>
    have hnone : o.set? flag value = none := by
      rw [Option.eq_none_iff_forall_ne_some]
      intro o' hsome
      obtain ⟨setting, htakes, -⟩ := set?_eq_some_iff.1 hsome
      exact hvalue setting htakes
    rw [Options.read, ofText?_eq_some_iff.2 hname]
    dsimp only
    rw [hnone]
    rfl

/-! ## How arguments fall -/

theorem Spelled.nil : Spelled allowCount [] [] := ⟨[], .nil, rfl⟩

theorem Spelled.cons (hunit : setting.Unit allowCount unit)
    (hrest : Spelled allowCount settings rest) :
    Spelled allowCount (setting :: settings) (unit ++ rest) := by
  obtain ⟨units, hunits, rfl⟩ := hrest
  exact ⟨unit :: units, .cons hunit hunits, rfl⟩

/-- In front of arguments there is a unit, or the reader is stuck. -/
theorem unit_or_stuck (allowCount : Bool) (argument : String) (arguments : List String) :
    (∃ setting unit rest, Setting.Unit allowCount setting unit ∧
      argument :: arguments = unit ++ rest) ∨
      ∃ text, Stuck allowCount (argument :: arguments) text := by
  by_cases hflag : ∃ flag : Flag, flag.Spelled allowCount argument
  · obtain ⟨flag, hname⟩ := hflag
    cases arguments with
    -- a flag needs a value, and the value has to be one that the flag takes
    | nil => exact .inr ⟨_, .missingValue hname⟩
    | cons value rest =>
      by_cases hvalue : ∃ setting, flag.Takes value setting
      · obtain ⟨setting, htakes⟩ := hvalue
        exact .inl ⟨setting, _, rest, .value hname htakes, rfl⟩
      · exact .inr ⟨_, .badInteger hname fun setting htakes => hvalue ⟨setting, htakes⟩⟩
  · by_cases hjson : argument = "--json"
    · subst hjson
      exact .inl ⟨.json, _, arguments, .json, rfl⟩
    · exact .inr ⟨_, .unknownFlag (fun flag hname => hflag ⟨flag, hname⟩) hjson⟩

theorem Setting.Unit.ne_nil (hunit : setting.Unit allowCount unit) : unit ≠ [] := by
  cases hunit <;> simp

/-- **Arguments are units** up to their end, or up to a place where the reader is stuck. Induction
on their number. -/
theorem spelled_or_stuck (allowCount : Bool) (arguments : List String) :
    (∃ settings, Spelled allowCount settings arguments) ∨
      ∃ settings front rest text, Spelled allowCount settings front ∧
        arguments = front ++ rest ∧ Stuck allowCount rest text := by
  induction hlength : arguments.length using Nat.strongRecOn generalizing arguments with
  | ind length ih =>
    cases arguments with
    | nil => exact .inl ⟨[], .nil⟩
    | cons argument arguments =>
      rcases unit_or_stuck allowCount argument arguments with
        ⟨setting, unit, later, hunit, hsplit⟩ | ⟨text, hstuck⟩
      · -- what is left behind the unit is shorter
        have hshorter : later.length < length := by
          have hpos := List.length_pos_iff.2 hunit.ne_nil
          rw [← hlength, hsplit, List.length_append]
          omega
        rw [hsplit]
        rcases ih later.length hshorter later rfl with
          ⟨settings, hlater⟩ | ⟨settings, front, rest, text, hfront, rfl, hstuck⟩
        · exact .inl ⟨_, .cons hunit hlater⟩
        · exact .inr ⟨_, _, rest, text, .cons hunit hfront, by rw [List.append_assoc], hstuck⟩
      · exact .inr ⟨[], [], _, text, .nil, rfl, hstuck⟩

/-- The reader is stuck where arguments are left and none of their fronts is a unit. -/
theorem stuck_iff :
    (∃ text, Stuck allowCount rest text) ↔
      rest ≠ [] ∧ ∀ setting unit, Setting.Unit allowCount setting unit → ¬ unit <+: rest := by
  constructor
  · rintro ⟨text, hstuck⟩
    refine ⟨by cases hstuck <;> simp, ?_⟩
    rintro setting unit hunit ⟨later, hsplit⟩
    -- a unit in front contradicts each of the three reasons to be stuck
    cases hunit with
    | json =>
      have hnone (flag : Flag) : ¬ flag.Spelled allowCount "--json" := by
        rw [← ofText?_eq_some_iff, ofText?_json]
        simp
      cases hstuck with
      | unknownFlag _ hjson => exact hjson (List.cons.inj hsplit).1.symm
      | missingValue hname => exact hnone _ ((List.cons.inj hsplit).1 ▸ hname)
      | badInteger hname => exact hnone _ ((List.cons.inj hsplit).1 ▸ hname)
    | @value flag name value _ hname htakes =>
      cases hstuck with
      | unknownFlag hflag => exact hflag flag ((List.cons.inj hsplit).1 ▸ hname)
      | missingValue => simp at hsplit
      | badInteger hname' hvalue =>
        obtain ⟨rfl, hrest⟩ := List.cons.inj hsplit
        obtain ⟨rfl, -⟩ := List.cons.inj hrest
        rw [hname.unique hname'] at htakes
        exact hvalue setting htakes
  · rintro ⟨hne, hnone⟩
    cases rest with
    | nil => exact absurd rfl hne
    | cons argument arguments =>
      rcases unit_or_stuck allowCount argument arguments with
        ⟨setting, unit, later, hunit, hsplit⟩ | hstuck
      · exact absurd ⟨later, hsplit.symm⟩ (hnone setting unit hunit)
      · exact hstuck

/-! ## Outcomes -/

theorem ofArguments_of_spelled (h : Spelled allowCount settings arguments) :
    Options.ofArguments allowCount arguments = .ok (({} : Options).under settings) := by
  have hread := read_append h {} []
  rw [List.append_nil] at hread
  exact hread

/-- Units in front do not change what the reader says where it is stuck. -/
theorem ofArguments_of_stuck (hfront : Spelled allowCount settings front)
    (hrest : Stuck allowCount rest text) :
    (Options.ofArguments allowCount (front ++ rest)).mapError OptionFault.message =
      .error text := by
  unfold Options.ofArguments
  rw [read_append hfront]
  exact read_of_stuck hrest _

theorem ofArguments_eq_ok_iff :
    Options.ofArguments allowCount arguments = .ok o ↔
      ∃ settings, Spelled allowCount settings arguments ∧ o = ({} : Options).under settings := by
  constructor
  · intro hread
    rcases spelled_or_stuck allowCount arguments with
      ⟨settings, hspelled⟩ | ⟨settings, front, rest, text, hfront, rfl, hstuck⟩
    · rw [ofArguments_of_spelled hspelled] at hread
      cases hread
      exact ⟨settings, hspelled, rfl⟩
    · have herror := ofArguments_of_stuck hfront hstuck
      rw [hread] at herror
      cases herror
  · rintro ⟨settings, hspelled, rfl⟩
    exact ofArguments_of_spelled hspelled

/-- Arguments are refused for the place at which the units in front of them end. -/
theorem ofArguments_eq_error_iff :
    (Options.ofArguments allowCount arguments).mapError OptionFault.message = .error text ↔
      ∃ settings front rest, Spelled allowCount settings front ∧ arguments = front ++ rest ∧
        Stuck allowCount rest text := by
  constructor
  · intro hread
    rcases spelled_or_stuck allowCount arguments with
      ⟨settings, hspelled⟩ | ⟨settings, front, rest, text', hfront, rfl, hstuck⟩
    · rw [ofArguments_of_spelled hspelled] at hread
      cases hread
    · rw [ofArguments_of_stuck hfront hstuck] at hread
      cases hread
      exact ⟨settings, front, rest, hfront, rfl, hstuck⟩
  · rintro ⟨settings, front, rest, hfront, rfl, hstuck⟩
    exact ofArguments_of_stuck hfront hstuck

end Reader

/-- **Options are units one behind another.** Arguments are options if and only if they are units:
`--json`, or a flag with a number in its range, the count only where a command has one. They say
what the defaults are under the last setting of each option, so units of different options may
change places. Any other arguments are refused for what stands where the units from the left end: an
argument that is no flag, a flag without a value, or a flag whose value is no number for it; the
arguments behind that do not matter. Such a place is one where arguments are left and no unit
begins. -/
theorem options_are_units (allowCount : Bool) :
    (∀ arguments o, Options.ofArguments allowCount arguments = .ok o ↔
      ∃ settings, Spelled allowCount settings arguments ∧ o = ({} : Options).under settings) ∧
    (∀ settings settings' arguments arguments',
      Spelled allowCount settings arguments → Spelled allowCount settings' arguments' →
      (∀ flag, settings.filter (·.flag? = flag) = settings'.filter (·.flag? = flag)) →
        Options.ofArguments allowCount arguments = Options.ofArguments allowCount arguments') ∧
    (∀ arguments text,
      (Options.ofArguments allowCount arguments).mapError OptionFault.message = .error text ↔
        ∃ settings front rest, Spelled allowCount settings front ∧ arguments = front ++ rest ∧
          Stuck allowCount rest text) ∧
    ∀ rest, (∃ text, Stuck allowCount rest text) ↔
      rest ≠ [] ∧ ∀ setting unit, Setting.Unit allowCount setting unit → ¬ unit <+: rest := by
  refine ⟨fun _ _ => ofArguments_eq_ok_iff, ?_, fun _ _ => ofArguments_eq_error_iff,
    fun _ => stuck_iff⟩
  intro settings settings' arguments arguments' h h' hsame
  rw [ofArguments_of_spelled h, ofArguments_of_spelled h', Options.under_congr {} hsame]

/-- Two widths of which the later one holds, wherever the other options stand; a value that looks
like a flag; and a count for a command that has none, before a flag that lacks its value. -/
theorem options_are_units_in_any_order :
    Options.ofArguments true ["--P", "7", "--json", "--postfix", "+05", "--offset", "-42"] =
        .ok { suffixDigits := 5, offset := some (-42), json := true } ∧
      Options.ofArguments true ["--P", "7", "--json", "--postfix", "+05", "--offset", "-42"] =
        Options.ofArguments true ["--offset", "-42", "--P", "7", "--postfix", "+05", "--json"] ∧
      (Options.ofArguments true ["--json", "--offset", "--json"]).mapError OptionFault.message =
        .error "invalid integer for --offset" ∧
      (Options.ofArguments false ["--json", "--count", "7", "--P"]).mapError OptionFault.message =
        .error "unknown flag: --count" := by
  have hseven : Setting.Unit true (.suffixDigits 7) ["--P", "7"] :=
    .value .shortSuffix (.suffix ⟨['7'], ⟨by decide, by simp, by decide⟩, .inl rfl⟩ (by decide))
  have hfive : Setting.Unit true (.suffixDigits 5) ["--postfix", "+05"] :=
    .value .suffix (.suffix ⟨['0', '5'], ⟨by decide, by simp, by decide⟩, .inr rfl⟩ (by decide))
  have hoffset : Setting.Unit true (.offset (-42)) ["--offset", "-42"] :=
    .value .offset (.offset ⟨42, .inr ⟨['4', '2'], ⟨by decide, by simp, by decide⟩, rfl, rfl⟩⟩)
  have hspelled : Spelled true [.suffixDigits 7, .json, .suffixDigits 5, .offset (-42)]
      ["--P", "7", "--json", "--postfix", "+05", "--offset", "-42"] :=
    .cons hseven (.cons .json (.cons hfive (.cons hoffset .nil)))
  have hspelled' : Spelled true [.offset (-42), .suffixDigits 7, .suffixDigits 5, .json]
      ["--offset", "-42", "--P", "7", "--postfix", "+05", "--json"] :=
    .cons hoffset (.cons hseven (.cons hfive (.cons .json .nil)))
  have hjson (allowCount : Bool) : Spelled allowCount [.json] ["--json"] := .cons .json .nil
  have hvalue (setting : Setting) : ¬ Flag.offset.Takes "--json" setting := by
    intro htakes
    have hset : ({} : Options).set? .offset "--json" = some _ :=
      set?_eq_some_iff.2 ⟨setting, htakes, rfl⟩
    have hnone : ({} : Options).set? .offset "--json" = none := by decide
    rw [hnone] at hset
    cases hset
  have hcount (flag : Flag) : ¬ flag.Spelled false "--count" := by
    rw [← ofText?_eq_some_iff]
    cases flag <;> decide
  obtain ⟨hread, hreorder, -, -⟩ := options_are_units true
  refine ⟨(hread _ _).2 ⟨_, hspelled, rfl⟩, ?_, ?_, ?_⟩
  · refine hreorder _ _ _ _ hspelled hspelled' ?_
    rintro (_ | _ | _ | _) <;> rfl
  · exact ((options_are_units true).2.2.1 _ _).2
      ⟨_, _, _, hjson true, rfl, .badInteger .offset hvalue⟩
  · exact ((options_are_units false).2.2.1 _ _).2
      ⟨_, _, _, hjson false, rfl, .unknownFlag hcount (by decide)⟩

end TimeIds.Command
