import TradingHours.Disk.Fault
import TradingHours.Incident
import TradingHours.Journal.Template
import TradingHours.Text.Utf8
import TradingHours.Value.Display
/-!
Failures by cause, with one name and one message each.
-/
namespace TradingHours

inductive ScalarFault
  | date (fault : DateFault)
  | time (fault : TimeFault)
  | offset (span : Span)
  | integer (base : Nat) (text : String)
  | integerLength (digits : Nat)
  | number (text : String)
  | truthValue (text : String)
  | timestamp
  | timestampForm
  | empty
  | characterCode
  | hugeCode
  | numberRange
  | endless

inductive Failure
  | incident (i : Incident)
  | disk (fault : Disk.Fault)
  | undecodable (refusal : Text.Utf8Refusal)
  | dateOutOfRange
  | spanOutOfRange (days : Int)
  | clockMismatch
  | notAnInteger (text : String)
  | scalar (fault : ScalarFault)
  | longInteger
  | unknownLevel (name : String)
  | levelText (text : String)
  | levelKind (source : String)
  | missingAttribute (kind missing : String)
  | repeatedArgument (method argument : String)
  | notAPath (kind : String)
  | notAFolder (kind : String)
  | calendar (message : String)
  | template (fault : Journal.TemplateFault)

/-- A text that is no integer literal of a base; at most 200 characters of it are shown. -/
def literalMessage (base : Nat) (text : String) : String :=
  "invalid literal for int() with base " ++ Text.decimal base ++ ": " ++
    ((Text.quoted text).take 200).toString

def longIntegerMessage (detail : String) : String :=
  "Exceeds the limit (" ++ Text.decimal Text.maxLiteralDigits ++
    " digits) for integer string conversion" ++ detail ++
    "; use sys.set_int_max_str_digits() to increase the limit"

namespace ScalarFault

def name : ScalarFault → String
  | truthValue _ => "KeyError"
  | timestamp => "AttributeError"
  | timestampForm => "TypeError"
  | endless => "RecursionError"
  | empty => "IndexError"
  | hugeCode | numberRange => "OverflowError"
  | _ => "ValueError"

def message : ScalarFault → String
  | date (.year year) => "year " ++ Text.decimal year ++ " is out of range"
  | date .month => "month must be in 1..12"
  | date .day => "day is out of range for month"
  | time .hour => "hour must be in 0..23"
  | time .minute => "minute must be in 0..59"
  | time .second => "second must be in 0..59"
  | offset span =>
    "offset must be a timedelta strictly between -timedelta(hours=24) and timedelta(hours=24), not "
      ++ Value.spanSource span ++ "."
  | integer base text => literalMessage base text
  | integerLength digits => longIntegerMessage (": value has " ++ Text.decimal digits ++ " digits")
  | number text => "could not convert string to float: " ++ Text.quoted text
  | truthValue text => Text.quoted text
  | timestamp => "'NoneType' object has no attribute 'groupdict'"
  | timestampForm => "expected string or bytes-like object, got 'list'"
  | endless => "maximum recursion depth exceeded"
  | empty => "string index out of range"
  | characterCode => "chr() arg not in range(0x110000)"
  | hugeCode => "Python int too large to convert to C int"
  | numberRange => "int too large to convert to float"

end ScalarFault

def refusalMessage (r : Text.Utf8Refusal) : String :=
  let place := match r.bytes with
    | [b] => "byte 0x" ++ Text.paddedHex 2 b.toNat ++ " in position " ++ Text.decimal r.position
    | bytes => "bytes in position " ++ Text.decimal r.position ++ "-" ++
      Text.decimal (r.position + bytes.length - 1)
  "'utf-8' codec can't decode " ++ place ++ ": " ++ r.fault.phrase

namespace Failure

def name : Failure → String
  | incident i => i.detail.name
  | disk (.refused cause _) =>
    match cause with
    | .notFound => "FileNotFoundError"
    | .denied => "PermissionError"
    | .taken => "FileExistsError"
    | .notFolder => "NotADirectoryError"
    | .isFolder => "IsADirectoryError"
    | _ => "OSError"
  | disk .embeddedNul => "ValueError"
  | undecodable _ => "UnicodeDecodeError"
  | dateOutOfRange => "OverflowError"
  | spanOutOfRange _ => "OverflowError"
  | clockMismatch => "TypeError"
  | notAnInteger _ => "ValueError"
  | scalar fault => fault.name
  | longInteger => "ValueError"
  | unknownLevel _ => "AttributeError"
  | missingAttribute .. => "AttributeError"
  | repeatedArgument .. | notAPath _ | notAFolder _ => "TypeError"
  | levelText _ => "ValueError"
  | levelKind _ => "TypeError"
  | calendar _ => "RuntimeError"
  | template fault => fault.name

def message : Failure → String
  | incident i => i.message
  | disk fault => fault.message
  | undecodable refusal => refusalMessage refusal
  | dateOutOfRange => "date value out of range"
  | spanOutOfRange days =>
    if -2147483648 ≤ days && days < 2147483648 then
      "days=" ++ Text.decimal days ++ "; must have magnitude <= 999999999"
    else "Python int too large to convert to C int"
  | clockMismatch => "can't compare offset-naive and offset-aware times"
  | notAnInteger text => literalMessage 10 text
  | scalar fault => fault.message
  | longInteger => longIntegerMessage ""
  | unknownLevel name => "module 'logging' has no attribute " ++ "'" ++ name ++ "'"
  | levelText text => "Unknown level: " ++ Text.quoted text
  | levelKind source => "Level not an integer or a valid string: " ++ source
  | missingAttribute kind missing =>
    "'" ++ kind ++ "' object has no attribute '" ++ missing ++ "'"
  | repeatedArgument method argument =>
    method ++ "() got multiple values for argument '" ++ argument ++ "'"
  | notAPath kind => "expected str, bytes or os.PathLike object, not " ++ kind
  | notAFolder kind => "unsupported operand type(s) for /: '" ++ kind ++ "' and 'str'"
  | calendar message => message
  | template fault => fault.message

end Failure

end TradingHours
