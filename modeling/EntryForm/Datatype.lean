import EntryForm.Text.Basic

/-!
# Datatype tags

The tag of a node says what kind of field it is. `Kind.ofTag` knows every tag: one that names
no datatype gives a kind of its own, so that a form can show it.
-/

namespace EntryForm

/-- The datatypes of texts. -/
inductive TextKind
  | string
  | normalizedString
  | token
  deriving DecidableEq, Repr

/-- The datatypes of dates and times. -/
inductive DateTimeKind
  | date
  | time
  | dateTime
  | dateTimeStamp
  | duration
  deriving DecidableEq, Repr

/-- The datatypes of numbers. -/
inductive NumberKind
  | integer
  | positiveInteger
  | nonNegativeInteger
  | negativeInteger
  | nonPositiveInteger
  | unsignedByte
  | unsignedShort
  | unsignedInt
  | unsignedLong
  | byte
  | short
  | int
  | long
  | decimal
  | float
  | double
  deriving DecidableEq, Repr

/-- What a node of a specification stands for. -/
inductive Kind
  /-- A field whose values are not specified yet. -/
  | unspecified
  | text (kind : TextKind)
  | number (kind : NumberKind)
  | boolean
  | dateTime (kind : DateTimeKind)
  /-- A pick-list of nested choices. -/
  | categorical
  /-- Alternatives of which one is shown at a time. -/
  | disjunction
  /-- A group of component fields. -/
  | grouping
  | unrecognized (tag : String)
  deriving DecidableEq, Repr

namespace TextKind

def name : TextKind → String
  | .string => "string"
  | .normalizedString => "normalizedString"
  | .token => "token"

end TextKind

namespace DateTimeKind

def name : DateTimeKind → String
  | .date => "date"
  | .time => "time"
  | .dateTime => "dateTime"
  | .dateTimeStamp => "dateTimeStamp"
  | .duration => "duration"

/-- The picker format of a field that names none. -/
def defaultFormat : DateTimeKind → String
  | .date => "yyyy-mm-dd"
  | .time => "hh:ii:ss"
  | .dateTime => "yyyy-mm-ddThh:ii:ss"
  | .dateTimeStamp => "yyyy-mm-ddThh:ii:ss"
  | .duration => ""

end DateTimeKind

namespace NumberKind

def name : NumberKind → String
  | .integer => "integer"
  | .positiveInteger => "positiveInteger"
  | .nonNegativeInteger => "nonNegativeInteger"
  | .negativeInteger => "negativeInteger"
  | .nonPositiveInteger => "nonPositiveInteger"
  | .unsignedByte => "unsignedByte"
  | .unsignedShort => "unsignedShort"
  | .unsignedInt => "unsignedInt"
  | .unsignedLong => "unsignedLong"
  | .byte => "byte"
  | .short => "short"
  | .int => "int"
  | .long => "long"
  | .decimal => "decimal"
  | .float => "float"
  | .double => "double"

/-- Whether the numbers of a datatype have no fraction. -/
def isInteger : NumberKind → Bool
  | .decimal => false
  | .float => false
  | .double => false
  | _ => true

/-- The family a number field is validated as. -/
def family : NumberKind → String
  | .decimal => "decimal"
  | .float => "float"
  | .double => "double"
  | _ => "integer"

/-- The least and greatest value of a datatype, where it has them. Floats keep to the integers
of a significand of 24 bits with sign, doubles to those that are all exact. -/
def range : NumberKind → Option Int × Option Int
  | .integer => (none, none)
  | .decimal => (none, none)
  | .positiveInteger => (some 1, none)
  | .nonNegativeInteger => (some 0, none)
  | .negativeInteger => (none, some (-1))
  | .nonPositiveInteger => (none, some 0)
  | .unsignedByte => (some 0, some 255)
  | .unsignedShort => (some 0, some 65535)
  | .unsignedInt => (some 0, some 4294967295)
  | .unsignedLong => (some 0, some 18446744073709551615)
  | .byte => (some (-128), some 127)
  | .short => (some (-32768), some 32767)
  | .int => (some (-2147483648), some 2147483647)
  | .long => (some (-9223372036854775808), some 9223372036854775807)
  | .float => (some (-8388608), some 8388607)
  | .double => (some (-9007199254740991), some 9007199254740991)

end NumberKind

namespace Kind

/-- The kind a datatype of XML Schema stands for. -/
def ofLocalName? : String → Option Kind
  | "string" => some (.text .string)
  | "normalizedString" => some (.text .normalizedString)
  | "token" => some (.text .token)
  | "integer" => some (.number .integer)
  | "positiveInteger" => some (.number .positiveInteger)
  | "nonNegativeInteger" => some (.number .nonNegativeInteger)
  | "negativeInteger" => some (.number .negativeInteger)
  | "nonPositiveInteger" => some (.number .nonPositiveInteger)
  | "unsignedByte" => some (.number .unsignedByte)
  | "unsignedShort" => some (.number .unsignedShort)
  | "unsignedInt" => some (.number .unsignedInt)
  | "unsignedLong" => some (.number .unsignedLong)
  | "byte" => some (.number .byte)
  | "short" => some (.number .short)
  | "int" => some (.number .int)
  | "long" => some (.number .long)
  | "decimal" => some (.number .decimal)
  | "float" => some (.number .float)
  | "double" => some (.number .double)
  | "boolean" => some .boolean
  | "date" => some (.dateTime .date)
  | "time" => some (.dateTime .time)
  | "dateTime" => some (.dateTime .dateTime)
  | "dateTimeStamp" => some (.dateTime .dateTimeStamp)
  | "duration" => some (.dateTime .duration)
  | "anyURI" => some .categorical
  | "QName" => some .categorical
  | _ => none

/-- The name of a datatype of XML Schema, after either of its two leads. -/
def localName? (tag : String) : Option String :=
  ((Text.after? "xmls:".toList tag.toList).or (Text.after? "xsd:".toList tag.toList)).map
    String.ofList

/-- The kind that a datatype tag stands for. A tag that is not known is kept as it is. -/
def ofTag : Option String → Kind
  | none => .unspecified
  | some tag =>
    if tag = "model" then .grouping
    else if tag = "disjunction" then .disjunction
    else ((localName? tag).bind ofLocalName?).getD (.unrecognized tag)

/-- Whether a field of this kind holds a value of its own. -/
def isInput : Kind → Bool
  | .text _ => true
  | .number _ => true
  | .boolean => true
  | .dateTime _ => true
  | .categorical => true
  | _ => false

end Kind

end EntryForm
