import TradingHours.Value.Basic
/-!
The names of the kinds of value.
-/
namespace TradingHours.Value

def kindName (v : Value) : String :=
  match v.opened with
  | null => "NoneType"
  | bool _ => "bool"
  | int _ => "int"
  | number _ => "float"
  | text _ => "str"
  | bytes _ => "bytes"
  | date _ => "date"
  | instant _ => "datetime"
  | set _ => "set"
  | mapping _ => "dict"
  | _ => "list"

end TradingHours.Value
