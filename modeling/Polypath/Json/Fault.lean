import Polypath.Decimal.Layout
import Polypath.Decimal.Numeral
import Polypath.Text.Quoted

/-!
# What can be wrong with a document

Three kinds of faults: the text is no document, it breaks off, or it is a document of the wrong shape.
-/

namespace Polypath.Json

/-- The kinds of faults. -/
inductive Category where
  | syntactic
  | data
  | eof
deriving DecidableEq, Repr

/-- What a place in a document has to hold. -/
inductive Wanted where
  /-- A record, under its title. -/
  | record (title : String)
  /-- An unsigned integer of so many bits. -/
  | word (bits : Nat)
  | sequence
  | real
  | unit
deriving DecidableEq, Repr

/-- What is found in a place that has to hold something else. -/
inductive Found where
  | null
  | boolean (value : Bool)
  | number (value : Decimal.Number)
  | string (value : List Char)
  | sequence
  | map
deriving DecidableEq, Repr

/-- What a text can break off in. -/
inductive Unfinished where
  | value
  | string
  | list
  | object
deriving DecidableEq, Repr

/-- Why a document is not read. -/
inductive Fault where
  | expectedValue
  | expectedIdent
  | expectedListEnd
  | expectedObjectEnd
  | expectedColon
  | expectedKey
  | trailingComma
  | trailingCharacters
  | invalidNumber
  | numberOutOfRange
  | invalidEscape
  | controlCharacter
  | loneSurrogate
  | unfinishedSurrogate
  | eof (within : Unfinished)
  | wrongType (found : Found) (wanted : Wanted)
  | wrongInteger (found : Decimal.Number) (wanted : Wanted)
  | missingField (name : String)
  | duplicateField (name : String)
  | tooShort (length : Nat) (title : String) (members : Nat)
  | unknownAxis (name : List Char)
deriving DecidableEq, Repr

/-- Numbers are set positionally from the fifth decimal place to sixteen digits before the point. -/
def numberLayout : Decimal.Layout := ⟨-5, 15⟩

/-- The text of a finite coordinate. -/
def finiteText (c : Coord) : List Char := numberLayout.renderNumber c.isNegative c.magnitude

namespace Wanted

/-- What is wanted, in words. -/
def text : Wanted → String
  | .record title => "struct " ++ title
  | .word bits => s!"u{bits}"
  | .sequence => "a sequence"
  | .real => "f64"
  | .unit => "unit"

end Wanted

namespace Found

/-- A number, in words. -/
def numberText : Decimal.Number → String
  | .natural n => s!"integer `{n}`"
  | .negative n => s!"integer `-{n}`"
  | .real c => s!"floating point `{String.ofList (finiteText c)}`"

/-- What is found, in words. -/
def text : Found → String
  | .null => "null"
  | .boolean value => s!"boolean `{value}`"
  | .number value => numberText value
  | .string value => "string " ++ Text.quoted value
  | .sequence => "sequence"
  | .map => "map"

end Found

namespace Unfinished

/-- What breaks off, in words. -/
def text : Unfinished → String
  | .value => "a value"
  | .string => "a string"
  | .list => "a list"
  | .object => "an object"

end Unfinished

namespace Fault

/-- The kind of a fault. -/
def category : Fault → Category
  | .eof _ => .eof
  | .wrongType _ _ | .wrongInteger _ _ | .missingField _ | .duplicateField _ | .tooShort _ _ _ | .unknownAxis _ => .data
  | _ => .syntactic

/-- The fault in words. -/
def message : Fault → String
  | .expectedValue => "expected value"
  | .expectedIdent => "expected ident"
  | .expectedListEnd => "expected `,` or `]`"
  | .expectedObjectEnd => "expected `,` or `\x7d`"
  | .expectedColon => "expected `:`"
  | .expectedKey => "key must be a string"
  | .trailingComma => "trailing comma"
  | .trailingCharacters => "trailing characters"
  | .invalidNumber => "invalid number"
  | .numberOutOfRange => "number out of range"
  | .invalidEscape => "invalid escape"
  | .controlCharacter => "control character (\\u0000-\\u001F) found while parsing a string"
  | .loneSurrogate => "lone leading surrogate in hex escape"
  | .unfinishedSurrogate => "unexpected end of hex escape"
  | .eof within => "EOF while parsing " ++ within.text
  | .wrongType found wanted => s!"invalid type: {found.text}, expected {wanted.text}"
  | .wrongInteger found wanted => s!"invalid value: {Found.numberText found}, expected {wanted.text}"
  | .missingField name => s!"missing field `{name}`"
  | .duplicateField name => s!"duplicate field `{name}`"
  | .tooShort length title members =>
    s!"invalid length {length}, expected struct {title} with {members} elements"
  | .unknownAxis name => s!"unknown variant `{String.ofList name}`, expected `x` or `y`"

end Fault

end Polypath.Json
