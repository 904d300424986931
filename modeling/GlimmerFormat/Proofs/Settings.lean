import GlimmerFormat.Settings
import Mathlib.Data.List.Basic
import Mathlib.Data.List.Perm.Basic
import Mathlib.Tactic.Lemma

/-!
# What settings are read from

Settings are read from pairs of keys and values, one pair after the other.  This file says of the
pairs alone what comes out.  A key must be the name of a choice in one of its two spellings, and a
value, unless it is null, of the same type as the value that the choice has otherwise, and no
negative number.  Where all pairs are like this each choice has the last value that is given to it;
where one is not, the first such pair is reported.

* `SettingName.Names`: the keys of a choice.
* `Settings.IsAccepted`, `Settings.Offends`: the pairs that can be read, and what is wrong with the
  others.
* `Settings.ofPairs?_exact`: when pairs are read, what is read from them, what is reported
  otherwise, and what their order matters for.
-/

namespace GlimmerFormat

namespace SettingName

/-- The name of a choice with underscores between its words. -/
def snake : SettingName → String
  | .singleQuote => "single_quote"
  | .printWidth => "print_width"
  | .tabWidth => "tab_width"
  | .useTabs => "use_tabs"

/-- Characters with a capital in place of each underscore and the letter behind it. -/
def capitalized : List Char → List Char
  | '_' :: c :: cs => c.toUpper :: capitalized cs
  | c :: cs => c :: capitalized cs
  | [] => []

/-- The name of a choice with capitals between its words. -/
def camel (name : SettingName) : String :=
  String.ofList (capitalized name.snake.toList)

/-- Whether a key is the name of a choice, in either spelling. -/
def Names (key : String) (name : SettingName) : Prop :=
  key = name.snake ∨ key = name.camel

instance (key : String) (name : SettingName) : Decidable (Names key name) :=
  inferInstanceAs (Decidable (key = name.snake ∨ key = name.camel))

example : SettingName.printWidth.camel = "printWidth" := by decide

/-- Keys are looked up by these names. -/
lemma ofKey?_eq_some_iff {key : String} {name : SettingName} :
    ofKey? key = some name ↔ Names key name := by
  constructor
  · intro h
    unfold ofKey? at h
    split_ifs at h with hkey hkey hkey hkey <;> cases h <;> exact hkey
  · cases name <;> rintro (rfl | rfl) <;> decide

/-- A key names one choice at most. -/
lemma Names.unique {key : String} {name name' : SettingName} (h : Names key name)
    (h' : Names key name') : name = name' := by
  rw [← ofKey?_eq_some_iff] at h h'
  exact Option.some.inj (h.symm.trans h')

end SettingName

namespace Settings

open SettingName

/-- The value of a choice among settings. -/
def value (s : Settings) : SettingName → Json
  | .singleQuote => .bool s.singleQuote
  | .printWidth => .int s.printWidth
  | .tabWidth => .int s.tabWidth
  | .useTabs => .bool s.useTabs

/-- The value of a choice that nothing is given to. -/
def standard (name : SettingName) : Json :=
  ({} : Settings).value name

/-- A value that a choice can take: one of the type of its default, and no negative number. -/
structure Fits (name : SettingName) (v : Json) : Prop where
  typeName_eq : v.typeName = (standard name).typeName
  nonneg : ∀ n, v = .int n → 0 ≤ n

/-- A pair that can be read: its key is the name of a choice, and its value, unless it is null, is
one that this choice can take. -/
def IsAccepted (pair : String × Json) : Prop :=
  ∃ name, Names pair.1 name ∧ (pair.2 ≠ .null → Fits name pair.2)

/-- What is wrong with a pair that cannot be read. -/
inductive Offends : String × Json → Fault → Prop
  | unknown {key : String} {v : Json} (h : ∀ name, ¬Names key name) :
    Offends (key, v) (.unknownSetting key)
  | mistyped {key : String} {name : SettingName} {v : Json} {expected : SettingType}
    (hname : Names key name) (hnull : v ≠ .null) (hv : v.typeName ≠ (standard name).typeName)
    (hexpected : expected.name = (standard name).typeName) :
    Offends (key, v) (.mistypedSetting key expected v.typeName)
  | negative {key : String} {name : SettingName} {n : Int} (hname : Names key name)
    (hsize : (Json.int n).typeName = (standard name).typeName) (hn : n < 0) :
    Offends (key, .int n) (.negativeSetting key n)

/-- What a pair gives to a choice; null is nothing. -/
def given (name : SettingName) : String × Json → Option Json
  | (_, .null) => none
  | (key, v) => if Names key name then some v else none

/-- The last value that pairs give to a choice. -/
def lastGiven (name : SettingName) (pairs : List (String × Json)) : Option Json :=
  (pairs.filterMap (given name)).getLast?

variable {s s' : Settings} {name : SettingName} {pair : String × Json}
  {pairs others : List (String × Json)} {fault : Fault}

/-- Truth values alone are of the type named `bool`. -/
lemma typeName_eq_bool_iff {v : Json} : v.typeName = "bool" ↔ ∃ b, v = .bool b := by
  cases v <;> simp [Json.typeName]

/-- Integers alone are of the type named `int`. -/
lemma typeName_eq_int_iff {v : Json} : v.typeName = "int" ↔ ∃ n, v = .int n := by
  cases v <;> simp [Json.typeName]

/-- Settings are known by the values of their choices. -/
lemma eq_of_value_eq (h : ∀ name, s.value name = s'.value name) : s = s' := by
  have hsingleQuote := Json.bool.inj (h .singleQuote)
  have hprintWidth := Json.int.inj (h .printWidth)
  have htabWidth := Json.int.inj (h .tabWidth)
  have huseTabs := Json.bool.inj (h .useTabs)
  cases s
  cases s'
  simp_all

/-- Each choice can take its own default. -/
lemma fits_standard (name : SettingName) : Fits name (standard name) := by
  refine ⟨rfl, fun n h => ?_⟩
  cases name with
  | singleQuote | useTabs => cases h
  | printWidth | tabWidth => cases h; decide

/-- A pair gives a value to a choice if it names the choice and its value is not null. -/
lemma given_eq_some_iff {v : Json} :
    given name pair = some v ↔ Names pair.1 name ∧ pair.2 = v ∧ v ≠ .null := by
  obtain ⟨key, w⟩ := pair
  cases w with
  | null =>
    refine ⟨nofun, ?_⟩
    rintro ⟨-, rfl, hnull⟩
    exact absurd rfl hnull
  | _ =>
    simp only [given, Option.ite_none_right_eq_some, Option.some.injEq]
    constructor
    · rintro ⟨hname, rfl⟩
      exact ⟨hname, rfl, by simp⟩
    · rintro ⟨hname, hvalue, -⟩
      exact ⟨hname, hvalue⟩

/-! ## One pair -/

/-- A value that a choice can take is taken, and no other choice changes. -/
lemma exists_ofJson? {v : Json} (h : Fits name v) (key : String) :
    ∃ setting, Setting.ofJson? name key v = .ok setting ∧
      ∀ s : Settings, ∀ name', (s.set setting).value name' =
        if name' = name then v else s.value name' := by
  cases name with
  | singleQuote =>
    obtain ⟨b, rfl⟩ := typeName_eq_bool_iff.mp h.typeName_eq
    exact ⟨.singleQuote b, rfl, fun s name' => by cases name' <;> rfl⟩
  | printWidth =>
    obtain ⟨n, rfl⟩ := typeName_eq_int_iff.mp h.typeName_eq
    obtain ⟨k, rfl⟩ := Int.eq_ofNat_of_zero_le (h.nonneg n rfl)
    exact ⟨.printWidth k, rfl, fun s name' => by cases name' <;> rfl⟩
  | tabWidth =>
    obtain ⟨n, rfl⟩ := typeName_eq_int_iff.mp h.typeName_eq
    obtain ⟨k, rfl⟩ := Int.eq_ofNat_of_zero_le (h.nonneg n rfl)
    exact ⟨.tabWidth k, rfl, fun s name' => by cases name' <;> rfl⟩
  | useTabs =>
    obtain ⟨b, rfl⟩ := typeName_eq_bool_iff.mp h.typeName_eq
    exact ⟨.useTabs b, rfl, fun s name' => by cases name' <;> rfl⟩

/-- A value under the name of a choice is given to that choice. -/
lemma add?_of_names {key : String} {v : Json} (hname : Names key name) (hnull : v ≠ .null) :
    s.add? (key, v) = (Setting.ofJson? name key v).map s.set := by
  rw [← ofKey?_eq_some_iff] at hname
  cases v with
  | null => exact absurd rfl hnull
  | _ => simp [add?, hname]

/-- A pair that is accepted gives its value to the choice that it names. -/
lemma add?_of_isAccepted (h : IsAccepted pair) (s : Settings) :
    ∃ s', s.add? pair = .ok s' ∧ ∀ name, s'.value name = (given name pair).getD (s.value name) := by
  obtain ⟨key, v⟩ := pair
  obtain ⟨name, hname, hfits⟩ := h
  by_cases hnull : v = .null
  · subst hnull
    exact ⟨s, add?_null s (by simp [ofKey?_eq_some_iff.mpr hname]), fun _ => rfl⟩
  · obtain ⟨setting, hsetting, hvalue⟩ := exists_ofJson? (hfits hnull) key
    refine ⟨s.set setting, by rw [add?_of_names hname hnull, hsetting]; rfl, fun name' => ?_⟩
    rw [hvalue]
    by_cases hsame : name' = name
    · subst hsame
      rw [if_pos rfl, given_eq_some_iff.mpr ⟨hname, rfl, hnull⟩, Option.getD_some]
    · have hnone : given name' (key, v) = none := by
        by_contra hsome
        obtain ⟨w, hw⟩ := Option.ne_none_iff_exists'.mp hsome
        exact hsame ((given_eq_some_iff.mp hw).1.unique hname)
      rw [if_neg hsame, hnone, Option.getD_none]

/-- A value of the wrong type is reported with the type that it should have. -/
lemma ofJson?_of_mistyped {key : String} {v : Json} {expected : SettingType}
    (hv : v.typeName ≠ (standard name).typeName)
    (hexpected : expected.name = (standard name).typeName) :
    Setting.ofJson? name key v = .error (.mistypedSetting key expected v.typeName) := by
  cases name <;> cases expected <;> try exact absurd hexpected (by decide)
  all_goals
    cases v <;> first | rfl | exact absurd rfl hv

/-- A negative number is reported where a size should be. -/
lemma ofJson?_of_neg {key : String} {n : Int} (hn : n < 0)
    (hsize : (Json.int n).typeName = (standard name).typeName) :
    Setting.ofJson? name key (.int n) = .error (.negativeSetting key n) := by
  have herror : Setting.size? key (.int n) = .error (.negativeSetting key n) := if_pos hn
  cases name with
  | singleQuote | useTabs => simp [Json.typeName, standard, value] at hsize
  | printWidth | tabWidth => rw [Setting.ofJson?, herror]; rfl

/-- A pair that cannot be read is reported. -/
lemma add?_of_offends (h : Offends pair fault) (s : Settings) : s.add? pair = .error fault := by
  cases h with
  | @unknown key v h =>
    have hnone : ofKey? key = none := by
      by_contra hsome
      obtain ⟨name, hname⟩ := Option.ne_none_iff_exists'.mp hsome
      exact h name (ofKey?_eq_some_iff.mp hname)
    simp [add?, hnone]
  | mistyped hname hnull hv hexpected =>
    rw [add?_of_names hname hnull, ofJson?_of_mistyped hv hexpected]
    rfl
  | negative hname hsize hn =>
    rw [add?_of_names hname (by simp), ofJson?_of_neg hn hsize]
    rfl

/-- A pair can be read, or something is wrong with it. -/
lemma isAccepted_or_offends (pair : String × Json) :
    IsAccepted pair ∨ ∃ fault, Offends pair fault := by
  obtain ⟨key, v⟩ := pair
  by_cases hname : ∃ name, Names key name
  · obtain ⟨name, hname⟩ := hname
    by_cases hnull : v = .null
    · exact .inl ⟨name, hname, fun h => absurd hnull h⟩
    · by_cases htype : v.typeName = (standard name).typeName
      · by_cases hnonneg : ∀ n, v = .int n → 0 ≤ n
        · exact .inl ⟨name, hname, fun _ => ⟨htype, hnonneg⟩⟩
        · obtain ⟨n, hneg⟩ := not_forall.mp hnonneg
          obtain ⟨rfl, hn⟩ := Classical.not_imp.mp hneg
          exact .inr ⟨_, .negative hname htype (Int.not_le.mp hn)⟩
      · obtain ⟨expected, hexpected⟩ : ∃ expected, SettingType.name expected =
            (standard name).typeName := by
          cases name with
          | singleQuote | useTabs => exact ⟨.flag, rfl⟩
          | printWidth | tabWidth => exact ⟨.size, rfl⟩
        exact .inr ⟨_, .mistyped hname hnull htype hexpected⟩
  · exact .inr ⟨_, .unknown (not_exists.mp hname)⟩

/-! ## One pair after the other -/

/-- Of what later pairs give to a choice and what the first one does, the later counts. -/
lemma getD_lastGiven_cons (v : Json) :
    (lastGiven name (pair :: pairs)).getD v =
      (lastGiven name pairs).getD ((given name pair).getD v) := by
  cases hgiven : given name pair with
  | none => rw [lastGiven, List.filterMap_cons_none hgiven]; rfl
  | some w =>
    rw [lastGiven, List.filterMap_cons_some hgiven, List.getLast?_cons]
    rfl

/-- Pairs that are all accepted give their last values to the choices. -/
lemma exists_foldlM (h : ∀ pair ∈ pairs, IsAccepted pair) (s : Settings) :
    ∃ s', pairs.foldlM add? s = .ok s' ∧
      ∀ name, s'.value name = (lastGiven name pairs).getD (s.value name) := by
  induction pairs generalizing s with
  | nil => exact ⟨s, rfl, fun _ => rfl⟩
  | cons pair pairs ih =>
    obtain ⟨hpair, hpairs⟩ := List.forall_mem_cons.mp h
    obtain ⟨middle, hmiddle, hvalue⟩ := add?_of_isAccepted hpair s
    obtain ⟨s', hs', hvalue'⟩ := ih hpairs middle
    refine ⟨s', by rw [List.foldlM_cons, hmiddle]; exact hs', fun name => ?_⟩
    rw [hvalue', hvalue, getD_lastGiven_cons]

/-- The first pair that cannot be read is reported. -/
lemma foldlM_of_offends {before behind : List (String × Json)}
    (hbefore : ∀ pair ∈ before, IsAccepted pair) (h : Offends pair fault) (s : Settings) :
    (before ++ pair :: behind).foldlM add? s = .error fault := by
  obtain ⟨middle, hmiddle, -⟩ := exists_foldlM hbefore s
  rw [List.foldlM_append, hmiddle]
  change (pair :: behind).foldlM add? middle = _
  rw [List.foldlM_cons, add?_of_offends h]
  rfl

/-- If not all pairs are accepted, there is a first one with which something is wrong. -/
lemma exists_first_offends (h : ¬∀ pair ∈ pairs, IsAccepted pair) :
    ∃ before pair behind fault, pairs = before ++ pair :: behind ∧
      (∀ pair ∈ before, IsAccepted pair) ∧ Offends pair fault := by
  induction pairs with
  | nil => exact absurd (by simp) h
  | cons pair pairs ih =>
    rcases isAccepted_or_offends pair with hpair | ⟨fault, hfault⟩
    · have hpairs : ¬∀ pair ∈ pairs, IsAccepted pair :=
        fun hpairs => h (List.forall_mem_cons.mpr ⟨hpair, hpairs⟩)
      obtain ⟨before, first, behind, fault, rfl, hbefore, hfault⟩ := ih hpairs
      exact ⟨pair :: before, first, behind, fault, rfl,
        List.forall_mem_cons.mpr ⟨hpair, hbefore⟩, hfault⟩
    · exact ⟨[], pair, pairs, fault, rfl, by simp, hfault⟩

/-- Settings are read exactly if each pair can be. -/
lemma exists_ofPairs?_iff : (∃ s, ofPairs? pairs = .ok s) ↔ ∀ pair ∈ pairs, IsAccepted pair := by
  constructor
  · rintro ⟨s, hs⟩
    by_contra h
    obtain ⟨before, first, behind, fault, rfl, hbefore, hfault⟩ := exists_first_offends h
    rw [ofPairs?, foldlM_of_offends hbefore hfault] at hs
    cases hs
  · intro h
    obtain ⟨s, hs, -⟩ := exists_foldlM h {}
    exact ⟨s, hs⟩

/-- A choice holds the last value that is given to it, or else its default. -/
lemma value_of_ofPairs? (h : ofPairs? pairs = .ok s) (name : SettingName) :
    s.value name = (lastGiven name pairs).getD (standard name) := by
  obtain ⟨s', hs', hvalue⟩ := exists_foldlM (exists_ofPairs?_iff.mp ⟨s, h⟩) {}
  obtain rfl : s' = s := Except.ok.inj (hs'.symm.trans h)
  exact hvalue name

/-- Reading fails exactly with what is wrong with the first pair that cannot be read. -/
lemma ofPairs?_eq_error_iff :
    ofPairs? pairs = .error fault ↔ ∃ before pair behind, pairs = before ++ pair :: behind ∧
      (∀ pair ∈ before, IsAccepted pair) ∧ Offends pair fault := by
  constructor
  · intro h
    have hnot : ¬∀ pair ∈ pairs, IsAccepted pair := by
      rw [← exists_ofPairs?_iff]
      rintro ⟨s, hs⟩
      cases h.symm.trans hs
    obtain ⟨before, first, behind, fault', rfl, hbefore, hfault⟩ := exists_first_offends hnot
    rw [ofPairs?, foldlM_of_offends hbefore hfault] at h
    exact ⟨before, first, behind, rfl, hbefore, Except.error.inj h ▸ hfault⟩
  · rintro ⟨before, first, behind, rfl, hbefore, hfault⟩
    exact foldlM_of_offends hbefore hfault {}

/-- What is read fits the choice that it is read for. -/
lemma fits_value_of_ofPairs? (h : ofPairs? pairs = .ok s) (name : SettingName) :
    Fits name (s.value name) := by
  rw [value_of_ofPairs? h]
  cases hlast : lastGiven name pairs with
  | none => exact fits_standard name
  | some v =>
    obtain ⟨pair, hpair, hgiven⟩ := List.mem_filterMap.mp (List.mem_of_getLast? hlast)
    obtain ⟨hname, rfl, hnull⟩ := given_eq_some_iff.mp hgiven
    obtain ⟨name', hname', hfits⟩ := exists_ofPairs?_iff.mp ⟨s, h⟩ pair hpair
    obtain rfl := hname.unique hname'
    exact hfits hnull

/-! ## The order of pairs -/

/-- Different keys of one choice are its two spellings. -/
lemma spellings_of_names {key key' : String} (h : Names key name) (h' : Names key' name)
    (hne : key ≠ key') :
    (key = name.snake ∧ key' = name.camel) ∨ (key = name.camel ∧ key' = name.snake) := by
  rcases h with rfl | rfl <;> rcases h' with rfl | rfl
  · exact absurd rfl hne
  · exact .inl ⟨rfl, rfl⟩
  · exact .inr ⟨rfl, rfl⟩
  · exact absurd rfl hne

/-- A choice to which values are given under both of its names. -/
def IsGivenTwice (name : SettingName) (pairs : List (String × Json)) : Prop :=
  ∃ v w, (name.snake, v) ∈ pairs ∧ v ≠ .null ∧ (name.camel, w) ∈ pairs ∧ w ≠ .null

/-- If no key stands twice, the pairs give at most one value to a choice that is not given values
under both of its names. -/
lemma length_given_le_one (hkeys : (pairs.map Prod.fst).Nodup) (h : ¬IsGivenTwice name pairs) :
    (pairs.filterMap (given name)).length ≤ 1 := by
  cases hfirst : pairs.filterMap (given name) with
  | nil => simp
  | cons v vs =>
    cases vs with
    | nil => simp
    | cons w ws =>
      obtain ⟨before, p, behind, rfl, -, hp, hbehind⟩ := List.filterMap_eq_cons_iff.mp hfirst
      obtain ⟨between, q, others, rfl, -, hq, -⟩ := List.filterMap_eq_cons_iff.mp hbehind
      obtain ⟨hpname, rfl, hpnull⟩ := given_eq_some_iff.mp hp
      obtain ⟨hqname, rfl, hqnull⟩ := given_eq_some_iff.mp hq
      have hne : p.1 ≠ q.1 := by
        have hbehind := (List.nodup_append.mp (List.map_append ▸ hkeys)).2.1
        have hfresh := (List.nodup_cons.mp hbehind).1
        intro heq
        exact hfresh (heq ▸ List.mem_map_of_mem (by simp))
      obtain ⟨pkey, pvalue⟩ := p
      obtain ⟨qkey, qvalue⟩ := q
      rcases spellings_of_names hpname hqname hne with ⟨rfl, rfl⟩ | ⟨rfl, rfl⟩
      · exact absurd ⟨pvalue, qvalue, by simp, hpnull, by simp, hqnull⟩ h
      · exact absurd ⟨qvalue, pvalue, by simp, hqnull, by simp, hpnull⟩ h

/-- A list of at most one member has no other order. -/
lemma eq_of_perm_of_length_le_one {vs ws : List Json} (h : vs.Perm ws) (hlength : ws.length ≤ 1) :
    vs = ws := by
  match ws, hlength with
  | [], _ => exact List.perm_nil.mp h
  | [w], _ => exact List.perm_singleton.mp h

/-- Pairs in another order are read alike, unless some choice is given values under both of its
names. -/
lemma ofPairs?_of_perm (h : ofPairs? pairs = .ok s) (hkeys : (pairs.map Prod.fst).Nodup)
    (hperm : others.Perm pairs) (hgiven : ∀ name, ¬IsGivenTwice name pairs) :
    ofPairs? others = .ok s := by
  have haccepted : ∀ pair ∈ others, IsAccepted pair :=
    fun pair hpair => exists_ofPairs?_iff.mp ⟨s, h⟩ pair (hperm.mem_iff.mp hpair)
  obtain ⟨s', hs'⟩ := exists_ofPairs?_iff.mpr haccepted
  have hsame : s' = s := by
    refine eq_of_value_eq fun name => ?_
    have hlast : lastGiven name others = lastGiven name pairs := by
      rw [lastGiven, lastGiven, eq_of_perm_of_length_le_one (hperm.filterMap (given name))
        (length_given_le_one hkeys (hgiven name))]
    rw [value_of_ofPairs? hs', value_of_ofPairs? h, hlast]
  rw [hs', hsame]

/-! ## What is read -/

/-- Pairs are read just when each of them names a choice and has a value that fits it, or null.
Each choice then has the last value that is given to it under either of its names, if there is one,
and no size is negative.  Otherwise the first pair that is not like this is reported.  The order of
pairs with different keys matters only if values are given to a choice under both of its names. -/
theorem ofPairs?_exact (pairs : List (String × Json)) :
    ((∃ s, ofPairs? pairs = .ok s) ↔ ∀ pair ∈ pairs, IsAccepted pair) ∧
    (∀ s, ofPairs? pairs = .ok s →
      (∀ name, s.value name = (lastGiven name pairs).getD (standard name)) ∧
      0 ≤ s.printWidth ∧ 0 ≤ s.tabWidth) ∧
    (∀ fault, ofPairs? pairs = .error fault ↔
      ∃ before pair behind, pairs = before ++ pair :: behind ∧
        (∀ pair ∈ before, IsAccepted pair) ∧ Offends pair fault) ∧
    ∀ s others, (pairs.map Prod.fst).Nodup → ofPairs? pairs = .ok s → others.Perm pairs →
      ofPairs? others ≠ .ok s → ∃ name, IsGivenTwice name pairs := by
  refine ⟨exists_ofPairs?_iff, fun s h => ⟨value_of_ofPairs? h, ?_, ?_⟩,
    fun fault => ofPairs?_eq_error_iff, fun s others hkeys h hperm hother => ?_⟩
  · exact (fits_value_of_ofPairs? h .printWidth).nonneg s.printWidth rfl
  · exact (fits_value_of_ofPairs? h .tabWidth).nonneg s.tabWidth rfl
  · by_contra hgiven
    exact hother (ofPairs?_of_perm h hkeys hperm (not_exists.mp hgiven))

/-- Two widths under the two spellings: the later counts, and the order matters. -/
theorem ofPairs?_exact_of_two_spellings :
    (({ printWidth := 120 } : Settings).value .printWidth = .int 120 ∧
      (0 : Int) ≤ 120 ∧ (0 : Int) ≤ 2) ∧
    ∃ name, IsGivenTwice name [("printWidth", .int 100), ("print_width", .int 120)] := by
  have hread : ofPairs? [("printWidth", .int 100), ("print_width", .int 120)] =
      .ok { printWidth := 120 } := rfl
  have hother : ofPairs? [("print_width", .int 120), ("printWidth", .int 100)] =
      .ok { printWidth := 100 } := rfl
  obtain ⟨-, hvalues, -, horder⟩ :=
    ofPairs?_exact [("printWidth", .int 100), ("print_width", .int 120)]
  obtain ⟨hvalue, hsizes⟩ := hvalues _ hread
  refine ⟨⟨hvalue .printWidth, hsizes⟩, ?_⟩
  refine horder _ [("print_width", .int 120), ("printWidth", .int 100)] (by decide) hread
    (List.Perm.swap ..) ?_
  rw [hother]
  simp

end Settings

end GlimmerFormat
