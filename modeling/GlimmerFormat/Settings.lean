import GlimmerFormat.Fault
import GlimmerFormat.Tree.Json

/-!
# Settings

The formatter is told which quotes it prefers, how wide a page and a tab are, and whether a
level of indentation is a tab.  `Settings.ofPairs?` reads that from keys and values: of two
values for one setting the later counts, and a null value counts for nothing.
-/

namespace GlimmerFormat

/-- What the formatter is told. -/
structure Settings where
  singleQuote : Bool := false
  printWidth : Int := 80
  tabWidth : Int := 2
  useTabs : Bool := false
deriving DecidableEq

/-- The choices that settings hold. -/
inductive SettingName where
  | singleQuote
  | printWidth
  | tabWidth
  | useTabs
deriving DecidableEq

/-- One choice with its value. -/
inductive Setting where
  | singleQuote (b : Bool)
  | printWidth (n : Nat)
  | tabWidth (n : Nat)
  | useTabs (b : Bool)
deriving DecidableEq

namespace SettingName

/-- The choice that a key names, in either of its two spellings. -/
def ofKey? (key : String) : Option SettingName :=
  if key = "single_quote" ∨ key = "singleQuote" then some .singleQuote
  else if key = "print_width" ∨ key = "printWidth" then some .printWidth
  else if key = "tab_width" ∨ key = "tabWidth" then some .tabWidth
  else if key = "use_tabs" ∨ key = "useTabs" then some .useTabs
  else none

end SettingName

namespace Setting

/-- A value that must be a truth value. -/
def flag? (key : String) : Json → Except Fault Bool
  | .bool b => .ok b
  | v => .error (.mistypedSetting key .flag v.typeName)

/-- A value that must be a size.  A truth value is none. -/
def size? (key : String) : Json → Except Fault Nat
  | .int n => if n < 0 then .error (.negativeSetting key n) else .ok n.toNat
  | v => .error (.mistypedSetting key .size v.typeName)

/-- A choice with the value that is given under a key. -/
def ofJson? (name : SettingName) (key : String) (v : Json) : Except Fault Setting :=
  match name with
  | .singleQuote => (flag? key v).map .singleQuote
  | .printWidth => (size? key v).map .printWidth
  | .tabWidth => (size? key v).map .tabWidth
  | .useTabs => (flag? key v).map .useTabs

end Setting

namespace Settings

/-- The text of one level of indentation. -/
def unit (s : Settings) : String :=
  if s.useTabs then "\t" else String.ofList (List.replicate s.tabWidth.toNat ' ')

/-- The text of one level of indentation, if there can be so many spaces. -/
def unit? (s : Settings) : Except Fault String :=
  if s.useTabs ∨ MachineInt.int64.Holds s.tabWidth then .ok s.unit else .error (.overflow .int64)

/-- The settings with one choice changed. -/
def set (s : Settings) : Setting → Settings
  | .singleQuote b => { s with singleQuote := b }
  | .printWidth n => { s with printWidth := n }
  | .tabWidth n => { s with tabWidth := n }
  | .useTabs b => { s with useTabs := b }

/-- The settings after one more key with its value. -/
def add? (s : Settings) (pair : String × Json) : Except Fault Settings :=
  match SettingName.ofKey? pair.1, pair.2 with
  | none, _ => .error (.unknownSetting pair.1)
  | some _, .null => .ok s
  | some name, v => (Setting.ofJson? name pair.1 v).map s.set

/-- The settings that keys and values give, or the fault of the first bad pair. -/
def ofPairs? (pairs : List (String × Json)) : Except Fault Settings :=
  pairs.foldlM add? {}

/-- With tabs, one level of indentation is one tab, whatever the sizes are. -/
theorem unit_of_useTabs {s : Settings} (h : s.useTabs = true) : s.unit = "\t" := by
  simp [unit, h]

/-- A null value changes nothing, whichever setting its key names. -/
theorem add?_null (s : Settings) {key : String} (h : (SettingName.ofKey? key).isSome) :
    s.add? (key, .null) = .ok s := by
  obtain ⟨name, hn⟩ := Option.isSome_iff_exists.mp h
  simp [add?, hn]

end Settings

end GlimmerFormat
