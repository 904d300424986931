import GlimmerFormat.Number.Limits

/-!
# Faults

Everything that can stop the library is a fault, and a fault is a cause: it says what was met
and where.  `Fault.message` words the causes.
-/

namespace GlimmerFormat

/-- The type that the value of a setting must have. -/
inductive SettingType where
  | flag
  | size
deriving DecidableEq

/-- The name of a type, as messages give it. -/
def SettingType.name : SettingType → String
  | .flag => "bool"
  | .size => "int"

/-- What is needed of a value of the wrong type. -/
inductive Need where
  /-- A value with a number of characters, items or entries. -/
  | length
  /-- A value that yields others one by one. -/
  | elements
  /-- A value in which others are looked for. -/
  | container
  /-- A value that can be looked up among the names of elements. -/
  | key
  /-- A value that yields the parts of a path. -/
  | parts
  /-- A text, as the part of a path with an index. -/
  | part (index : Nat)
  /-- A text to put between quotes. -/
  | quotable
  /-- A text to cut into words. -/
  | words
deriving DecidableEq

/-- What is said of a value that is not what is needed, from the name of its type. -/
def Need.message (found : String) : Need → String
  | .length => "object of type '" ++ found ++ "' has no len()"
  | .elements => "'" ++ found ++ "' object is not iterable"
  | .container => "argument of type '" ++ found ++ "' is not iterable"
  | .key => "unhashable type: '" ++ found ++ "'"
  | .parts => "can only join an iterable"
  | .part index =>
    "sequence item " ++ toString index ++ ": expected str instance, " ++ found ++ " found"
  | .quotable => "can only concatenate str (not \"" ++ found ++ "\") to str"
  | .words => "expected string or bytes-like object, got '" ++ found ++ "'"

/-- What is said of an integer that a machine integer cannot hold. -/
def MachineInt.message : MachineInt → String
  | .int32 => "Python int too large to convert to C int"
  | .int64 => "cannot fit 'int' into an index-sized integer"

/-- A cause that stops the library. -/
inductive Fault where
  /-- A node, or a value where a node should stand, is of a kind without a rule. -/
  | unsupportedKind (kind : String)
  /-- A node of some kind was asked for a field that its kind lacks. -/
  | missingField (kind field : String)
  /-- A field that holds no list was to be gone through item by item. -/
  | notAList (kind field found : String)
  /-- The object of a node lacks a key without a default. -/
  | missingKey (kind key : String)
  /-- No setting has this key. -/
  | unknownSetting (key : String)
  /-- A setting is given a value of the wrong type. -/
  | mistypedSetting (key : String) (expected : SettingType) (found : String)
  /-- A size is negative. -/
  | negativeSetting (key : String) (value : Int)
  /-- A value of some type is asked for a part that its type lacks. -/
  | lacksPart (part found : String)
  /-- A value of some type is not what is needed. -/
  | illTyped (need : Need) (found : String)
  /-- A value that is no document, with its display, stands among documents. -/
  | strayDocument (shown : String)
  /-- A machine integer cannot hold the width of a tab. -/
  | overflow (kind : MachineInt)
  /-- An integer has too many digits to be written. -/
  | unwritable
  /-- A step of a script stopped on purpose. -/
  | stopped (message : String)
deriving DecidableEq, Inhabited

namespace Fault

/-- A display in a message, cut off behind a hundred characters. -/
def abridged (shown : String) : String :=
  if shown.length ≤ 100 then shown else String.ofList (shown.toList.take 100) ++ "..."

/-- The words of a fault. -/
def message : Fault → String
  | .unsupportedKind kind => "unknown glimmer type: " ++ kind
  | .missingField kind field => kind ++ " has no field '" ++ field ++ "'"
  | .notAList kind field found => kind ++ "." ++ field ++ " is not a list, it's " ++ found
  | .missingKey kind key => kind ++ " is missing required key '" ++ key ++ "'"
  | .unknownSetting key => "Unknown option '" ++ key ++ "'"
  | .mistypedSetting key expected found =>
    "Option '" ++ key ++ "' should be " ++ expected.name ++ ", got " ++ found
  | .negativeSetting key value =>
    "Option '" ++ key ++ "' must not be negative, got " ++ toString value
  | .lacksPart part found => "'" ++ found ++ "' object has no attribute '" ++ part ++ "'"
  | .illTyped need found => need.message found
  | .strayDocument shown => "Expected code to be unreachable, but got: " ++ abridged shown
  | .overflow kind => kind.message
  | .unwritable =>
    "Exceeds the limit (" ++ toString digitLimit ++ " digits) for integer string conversion; " ++
      "use sys.set_int_max_str_digits() to increase the limit"
  | .stopped message => message

end Fault

end GlimmerFormat
