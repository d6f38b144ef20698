import TradingHours.Text.Quoted
/-!
Why a file system call is refused, and how the refusal reads.
-/
namespace TradingHours.Disk

inductive Cause
  | notFound
  | denied
  | busy
  | taken
  | notFolder
  | isFolder
  | noSpace
  | nameTooLong
  deriving DecidableEq, Repr

def Cause.code : Cause → Nat
  | .notFound => 2
  | .denied => 13
  | .busy => 16
  | .taken => 17
  | .notFolder => 20
  | .isFolder => 21
  | .noSpace => 28
  | .nameTooLong => 36

def Cause.phrase : Cause → String
  | .notFound => "No such file or directory"
  | .denied => "Permission denied"
  | .busy => "Device or resource busy"
  | .taken => "File exists"
  | .notFolder => "Not a directory"
  | .isFolder => "Is a directory"
  | .noSpace => "No space left on device"
  | .nameTooLong => "File name too long"

inductive Fault
  | refused (cause : Cause) (paths : List String)
  | embeddedNul
  deriving DecidableEq, Repr

def Fault.message : Fault → String
  | .refused cause paths =>
    "[Errno " ++ Text.decimal cause.code ++ "] " ++ cause.phrase ++
      (if paths.isEmpty then "" else ": " ++ " -> ".intercalate (paths.map Text.quoted))
  | .embeddedNul => "embedded null byte"

end TradingHours.Disk
