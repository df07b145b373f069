import ComponentSync.Number.Double
import ComponentSync.Text.Quoted
/-!
What a typed reader found where it expected something else, and the two kinds of complaint it
makes: a value of the wrong kind ("invalid type") or of the right kind but out of range
("invalid value"). Each data format chooses how it names the empty value and how it writes
fractional numbers.
-/
namespace ComponentSync.Schema

/-- A value found in the input, described by its kind. -/
inductive Unexpected
  | bool (b : Bool)
  | unsigned (n : Nat)
  | signed (i : Int)
  | float (f : Float)
  | str (s : String)
  | unit
  | seq
  | map
  | other (what : String)

/-- How a data format names the values it reports: the text for the empty value and the
writing of fractional numbers. -/
structure Wording where
  unitText : String
  floatText : Float → String

def Unexpected.describe (w : Wording) : Unexpected → String
  | .bool b => "boolean `" ++ (if b then "true" else "false") ++ "`"
  | .unsigned n => "integer `" ++ toString n ++ "`"
  | .signed i => "integer `" ++ toString i ++ "`"
  | .float f => "floating point `" ++ w.floatText f ++ "`"
  | .str s => "string " ++ Text.quoted s
  | .unit => w.unitText
  | .seq => "sequence"
  | .map => "map"
  | .other what => what

def invalidType (w : Wording) (found : Unexpected) (expected : String) : String :=
  "invalid type: " ++ found.describe w ++ ", expected " ++ expected

/-- A value of the right kind outside what the target accepts. -/
def invalidValue (w : Wording) (found : Unexpected) (expected : String) : String :=
  "invalid value: " ++ found.describe w ++ ", expected " ++ expected

/-- A sequence with too few items for a record. -/
def invalidLength (n : Nat) (expected : String) : String :=
  "invalid length " ++ toString n ++ ", expected " ++ expected

def missingField (name : String) : String :=
  "missing field `" ++ name ++ "`"

def duplicateField (name : String) : String :=
  "duplicate field `" ++ name ++ "`"

/-- What a record of `n` fields is called when a sequence stands in for it. -/
def recordWith (name : String) (n : Nat) : String :=
  "struct " ++ name ++ " with " ++ toString n ++ " elements"

/-- The wording of JSON readers: `null`, and compact numbers with a signed exponent. -/
def jsonWording : Wording :=
  { unitText := "null", floatText := Number.renderCompact true }

/-- The wording of YAML readers: `unit value`, and positional numbers. -/
def yamlWording : Wording :=
  { unitText := "unit value", floatText := Number.renderPositional }

end ComponentSync.Schema
