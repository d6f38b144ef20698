import TradingHours.Output.Lines
import TradingHours.Resolution.Policy
/-!
The file for the monitoring sender: one line per market in the order of the allowlist.
-/
namespace TradingHours.Output

def senderLine (host itemKey : String) (value : Int) : String :=
  host ++ " " ++ itemKey ++ " " ++ Text.decimal value

/-- The states of markets; of two states of one market the later one counts. -/
def statesOf (states : List (String × Bool)) : Table String Bool :=
  Table.ofPairs states

def senderLines (host : String) (markets : List Market) (states : List (String × Bool)) :
    List String :=
  markets.filterMap fun market =>
    ((statesOf states).get? market.id).map fun state =>
      senderLine host market.itemKey (stateValue state)

def resolvedStates (resolutions : List Resolution) : List (String × Bool) :=
  resolutions.map fun r => (r.marketId, r.state)

def writeSender (p : Disk.Path) (host : String) (markets : List Market)
    (states : List (String × Bool)) : Work Written := do
  let written ← writeLines .sender p (senderLines host markets states)
  Work.note {
    logger := Outlet.sender.logger
    level := .info
    event := "Wrote sender input"
    fields := [("output_path", .text p.text), ("lines", .int written.lines)] }
  return written

def describeSender (p : Disk.Path) : String := "zabbix sender input at " ++ p.text

end TradingHours.Output
