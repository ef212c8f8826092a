import CallDoc.Text.Quoted
import CallDoc.Type.Hint

/-!
What can go wrong. `Error` covers everything from reading documentation to building a
parser for a parameter, `ValueError` what such a parser says of a value it refuses.
Constructors name causes; the wording is in `Error.message` and `ValueError.message`
alone.
-/
namespace CallDoc

/-- Why a type spelling is refused. -/
inductive SpellingFault
  | trailingInput
  | missingName
  | missingBracket
  | unterminatedString
  | integerOutOfRange
  /-- A generic of one argument has none or several. -/
  | oneArgument (generic : Text)
  | unknownGeneric (name : Text)
  /-- Something other than a literal value inside `Literal[...]`. -/
  | notLiteral
  /-- A literal value outside `Literal[...]`. -/
  | strayLiteral
  /-- An ellipsis elsewhere than at the end of a tuple of one type. -/
  | strayEllipsis
  deriving DecidableEq, Repr

def SpellingFault.message : SpellingFault → Text
  | .trailingInput => "unexpected trailing input".toList
  | .missingName => "expected a type name".toList
  | .missingBracket => "expected ']'".toList
  | .unterminatedString => "unterminated string literal".toList
  | .integerOutOfRange => "integer literal out of range".toList
  | .oneArgument generic => generic ++ " takes exactly one argument".toList
  | .unknownGeneric name => "unsupported generic type ".toList ++ name
  | .notLiteral => "Literal[...] takes literal values".toList
  | .strayLiteral => "literal values need Literal[...]".toList
  | .strayEllipsis => "'...' is only allowed as tuple[T, ...]".toList

/-- What a field of the documentation declares twice. -/
inductive Declared
  | text
  | type
  deriving DecidableEq, Repr

def Declared.word : Declared → Text
  | .text => "param".toList
  | .type => "type".toList

inductive Error
  /-- A parameter has two texts, or two types. -/
  | duplicateField (what : Declared) (name : Text)
  /-- An inline role that is neither standard nor configured. -/
  | unknownRole (role : Text)
  | invalidSpelling (spelling : Text) (fault : SpellingFault)
  | unresolvedName (name : Text)
  /-- A list type without an element type. -/
  | bareList
  /-- A container, tuple or record as an element of `outer`. -/
  | nestedContainer (outer : Hint)
  /-- A union of which one arm among several is a container, tuple or record. -/
  | containerInUnion (union : Hint)
  /-- The fields of a record lead back to the record itself. -/
  | endlessRecord (name : Text)
  | missingType (param : Text)
  /-- The documented type of a parameter is not the one its signature declares. -/
  | typeConflict (param spelling : Text) (hint : Hint)
  /-- A scalar type that no text can be converted to. -/
  | noParser (typeName : Text)
  /-- A private parameter that a caller cannot leave out. -/
  | privateWithoutDefault (param : Text)
  deriving DecidableEq, Repr

def Error.message : Error → Text
  | .duplicateField what name => what.word ++ " defined twice for ".toList ++ name
  | .unknownRole role => "unknown interpreted text role ".toList ++ Text.quoted role
  | .invalidSpelling spelling fault =>
    "invalid type expression ".toList ++ Text.quoted spelling ++ ": ".toList ++ fault.message
  | .unresolvedName name => "name ".toList ++ Text.quoted name ++ " is not defined".toList
  | .bareList => "unable to parse list (try list[type])".toList
  | .nestedContainer outer =>
    "unsupported nested container type: ".toList ++ outer.spelling
  | .containerInUnion union =>
    "unsupported union including container type: ".toList ++ union.spelling
  | .endlessRecord name => "record ".toList ++ name ++ " contains itself".toList
  | .missingType param => "no type found for parameter ".toList ++ param
  | .typeConflict param spelling hint =>
    "conflicting types found for parameter ".toList ++ param ++ ": ".toList ++ spelling ++
      ", ".toList ++ hint.spelling
  | .noParser typeName => "no parser found for type ".toList ++ typeName
  | .privateWithoutDefault param =>
    "parameter ".toList ++ param ++ " is private but has no default".toList

/-- Why a value given for a parameter is refused. -/
inductive ValueError
  | invalid (typeName value : Text)
  /-- The value is none of an enumerated list. -/
  | choice (value : Text) (choices : List Text)
  /-- A wrong number of tokens. -/
  | arity (typeName : Text) (expected got : Nat)
  deriving DecidableEq, Repr

def inQuotes (t : Text) : Text := '\x27' :: t ++ ['\x27']

def ValueError.message : ValueError → Text
  | .invalid typeName value =>
    "invalid ".toList ++ typeName ++ " value: ".toList ++ inQuotes value
  | .choice value choices =>
    "invalid choice: ".toList ++ inQuotes value ++ " (choose from ".toList ++
      commaJoin (choices.map inQuotes) ++ ")".toList
  | .arity typeName expected got =>
    typeName ++ " expects ".toList ++ Text.ofNat expected ++ " argument(s), got ".toList ++
      Text.ofNat got

end CallDoc
