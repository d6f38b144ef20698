import TradingHours.Table
import TradingHours.Text.Blank
import TradingHours.Text.Split
/-!
The aggregated dataset: rows of comma-separated columns below a header, with a token in the first
column and the venue keys that share it in the fourth. Main statement: `get?_merge`, of two rows
that list a key the earlier one counts.
-/
namespace TradingHours.Source

abbrev Tokens := Table String String

/-- A venue key without the date that an at sign puts behind it. -/
def bareKey (key : List Char) : List Char :=
  match Text.cutAtFirst '@' key with
  | some (c :: before, _) => c :: before
  | _ => key

def keysOf (column : List Char) : List String :=
  (((Text.splitOnChar ';' column).map Text.trimChars).filter fun key => !key.isEmpty).map
    fun key => String.ofList (bareKey key)

/-- The token of a row and the keys that share it. A row needs four columns, of which the first and
the fourth are not blank. -/
def rowOf? (line : String) : Option (String × List String) :=
  match Text.splitOnChar ',' line.toList with
  | first :: _ :: _ :: fourth :: _ =>
    let token := Text.trimChars first
    let keys := Text.trimChars fourth
    if token.isEmpty || keys.isEmpty then none else some (String.ofList token, keysOf keys)
  | _ => none

def listings (lines : List String) : List (String × String) :=
  (lines.filterMap rowOf?).flatMap fun (token, keys) => keys.map (·, token)

def merge (tokens : Tokens) (more : List (String × String)) : Tokens :=
  more.foldl (fun tokens pair => tokens.putNew pair.1 pair.2) tokens

def ofDataset (lines : List String) : Tokens :=
  merge [] (listings (lines.drop 1))

theorem get?_merge (tokens : Tokens) (more : List (String × String)) (k : String) :
    (merge tokens more).get? k = (tokens.get? k).or (Table.get? more k) := by
  induction more generalizing tokens with
  | nil => simp [merge]
  | cons pair rest ih =>
    have h : merge tokens (pair :: rest) = merge (tokens.putNew pair.1 pair.2) rest := rfl
    rw [h, ih, Table.get?_putNew]
    cases tokens.get? k <;> simp [Table.get?]
    split <;> simp

end TradingHours.Source
