import GraphClient.Calendar
import GraphClient.Literal.Kind
import GraphClient.Text.Blank

/-!
Why a call fails: a cause, the code it is filed under and its wording. Engine failures arrive as text with an
optional code in brackets; `Failure.ofEngineText` takes it apart.
-/
namespace GraphClient

inductive ErrorCode
  | unknown | message | analyzer | json | io | corruption | conflict | snapshotTooOld | cancelled | invalidArg
  | notFound | closed
deriving DecidableEq, Repr

namespace ErrorCode

def all : List ErrorCode :=
  [unknown, message, analyzer, json, io, corruption, conflict, snapshotTooOld, cancelled, invalidArg, notFound, closed]

def text : ErrorCode → String
  | unknown => "UNKNOWN"
  | message => "MESSAGE"
  | analyzer => "ANALYZER"
  | json => "JSON"
  | io => "IO"
  | corruption => "CORRUPTION"
  | conflict => "CONFLICT"
  | snapshotTooOld => "SNAPSHOT_TOO_OLD"
  | cancelled => "CANCELLED"
  | invalidArg => "INVALID_ARG"
  | notFound => "NOT_FOUND"
  | closed => "CLOSED"

/-- The code with this spelling; any other text is the unknown code. -/
def ofText (s : String) : ErrorCode := (all.find? (·.text == s)).getD unknown

def index (c : ErrorCode) : Nat := all.idxOf c

end ErrorCode

/-- Why an argument is refused before anything reaches the engine. -/
inductive Misuse
  | integerRange (n : Int)
  | notFinite (x : Float)
  | outsideWindow (t : DateTime)
  | beyondNanos (t : DateTime)
  | noOffset (t : DateTime)
  | notScalar (shape : String)
  | direction (text : String)
  | noArguments (op : String)
  | notOneArgument
  | nullOperand (call : String)
  | emptyList
  | mixedKinds (first other : LiteralKind)
  | noConditions (call : String)
  | blank (what : String)
  | blankAmong (what : String)
  | noTarget
  | noCurrentVariable
  | unknownVariable (name : String)
  | unlabelled (name : String)
  | emptyGroup
  | emptySelection
  | blankColumn
  | noLabel (call : String)
  | committed
  | executed
  | duplicateAlias (name : String)
  | notPositive (what : String)
  | stated (text : String)

namespace Misuse

def notFiniteText (x : Float) : String :=
  if x.isNaN then "NaN" else if x < 0 then "-inf" else "inf"

def message : Misuse → String
  | integerRange n => s!"integer literal {n} exceeds the signed 64-bit range"
  | notFinite x => "float literal must be finite, got " ++ notFiniteText x
  | outsideWindow t => "datetime literal " ++ t.utcText ++ " is outside [1900-01-01, 2100-01-01)"
  | beyondNanos t => "datetime literal " ++ t.utcText ++ " overflows nanoseconds"
  | noOffset t => "datetime literal " ++ t.text ++ " must carry an explicit offset"
  | notScalar shape => s!"unsupported literal type: {shape}"
  | direction text => s!"direction must be 'out', 'in', or 'both', got '{text}'"
  | noArguments op => s!"{op} predicate requires at least one argument"
  | notOneArgument => "not predicate requires exactly one argument"
  | nullOperand call => s!"{call}() does not accept null literals"
  | emptyList => "in_list() requires at least one value"
  | mixedKinds first other => "in_list() literals must share one type, found " ++ first.text ++ " and " ++ other.text
  | noConditions call => s!"{call}() requires at least one expression"
  | blank what => s!"{what} must be a non-empty string"
  | blankAmong what => s!"{what} must be non-empty strings"
  | noTarget => "match_all requires at least one target"
  | noCurrentVariable => "traverse requires a preceding match clause"
  | unknownVariable name => s!"unknown variable '{name}' - declare it first"
  | unlabelled name => s!"variable '{name}' requires a label before applying predicates"
  | emptyGroup => "predicate group must emit at least one predicate"
  | emptySelection => "select requires at least one property"
  | blankColumn => "projection alias must be non-empty"
  | noLabel call => s!"{call} requires at least one label"
  | committed => "transaction already committed"
  | executed => "builder already executed"
  | duplicateAlias name => s!"duplicate node alias '{name}'"
  | notPositive what => s!"{what} must be a positive integer"
  | stated text => text

end Misuse

inductive Violation
  | blankLabel
  | blankLabelProperty (label : String)
  | blankEdgeType
  | unknownEndpoint (edgeType label : String)
  | blankEdgeProperty (edgeType : String)
  | nodeProperty (name : String) (labels : List String)
  | edgeProperty (name edgeType : String)
  | labelProperty (name label : String)
  | unknownLabel (label : String)
  | unknownEdgeType (edgeType : String)
  | stated (text : String)

namespace Violation

def message : Violation → String
  | blankLabel => "node labels must be non-empty"
  | blankLabelProperty label => s!"label '{label}' declares an empty property name"
  | blankEdgeType => "edge types must be non-empty"
  | unknownEndpoint edgeType label => s!"edge '{edgeType}' references unknown node label '{label}'"
  | blankEdgeProperty edgeType => s!"edge '{edgeType}' declares an empty property name"
  | nodeProperty name labels => s!"unknown property '{name}' for node '" ++ Text.joined ":" labels ++ "'"
  | edgeProperty name edgeType => s!"unknown property '{name}' for edge '{edgeType}'"
  | labelProperty name label => s!"unknown property '{name}' on label '{label}'"
  | unknownLabel label => s!"unknown node label '{label}'"
  | unknownEdgeType edgeType => s!"unknown edge type '{edgeType}'"
  | stated text => text

end Violation

inductive ConfigFault
  | unreadable
  | malformed (inFile : Bool)
  | invalid (field reason : String)

namespace ConfigFault

def message : ConfigFault → String
  | unreadable => "failed to read client config"
  | malformed _ => "failed to parse client config"
  | invalid field reason => s!"client config field '{field}' {reason}"

end ConfigFault

/-- Why a call fails. `yearRange` is no refusal but the end of the program: an instant has no date in UTC. -/
inductive Failure
  | argument (cause : Misuse)
  | schema (cause : Violation)
  | wire (code : ErrorCode) (message : String)
  | config (cause : ConfigFault)
  | yearRange

namespace Failure

/-- Refusals of arguments and names share a code; configuration is filed under input and output. -/
def code : Failure → ErrorCode
  | argument _ | schema _ => .invalidArg
  | wire code _ => code
  | config _ => .io
  | yearRange => .unknown

def message : Failure → String
  | argument cause => cause.message
  | schema cause => cause.message
  | wire _ message => message
  | config cause => cause.message
  | yearRange => "local datetime out of valid range"

def display : Failure → String
  | argument cause => "invalid argument: " ++ cause.message
  | schema cause => "schema violation: " ++ cause.message
  | wire code message => "[" ++ code.text ++ "] " ++ message
  | config cause => cause.message
  | yearRange => "local datetime out of valid range"

def closed : Failure := wire .closed "database is closed"

def isCodeChar (c : Char) : Bool := ('A' ≤ c && c ≤ 'Z') || c == '_'

/-- Splits `[CODE] rest` into the code and the rest behind its leading white space. -/
def splitCode (raw : String) : Option (String × String) :=
  match raw.toList with
  | '[' :: body =>
    match body.span isCodeChar with
    | ([], _) => none
    | (code, ']' :: rest) => some (String.ofList code, Text.trimStart (String.ofList rest))
    | _ => none
  | _ => none

/-- An engine's failure text; without a code in front all of it is the message. -/
def ofEngineText (raw : String) : Failure :=
  match splitCode raw with
  | some (code, rest) => wire (.ofText code) rest
  | none => wire .unknown raw

end Failure
end GraphClient
