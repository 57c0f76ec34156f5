import RecordFilter.Filter.Parser
import RecordFilter.Json.Reader
import RecordFilter.Record

/-! Checking a JSON text against a filter. One array is filtered, one other document is matched, and
of several documents those that match are kept. -/

namespace RecordFilter

structure Check where
  filter : Text
  input : Option Text
  pretty : Bool
  syntaxOnly : Bool
  separator : Char
  deriving DecidableEq

namespace Check

inductive Error where
  | filter (cause : FilterError)
  | json (defect : Json.Defect)
  | unreadable
  | noInput
  deriving DecidableEq

def Error.message : Error → Text
  | filter cause => "Parse error: ".toList ++ cause.message
  | json .malformed => "Invalid JSON: the text is malformed".toList
  | json .endsEarly => "Invalid JSON: the text ends early".toList
  | unreadable => "IO error: the input is not UTF-8".toList
  | noInput => "No input provided. Use --input or pipe JSON to stdin.".toList

inductive Result where
  | validFilter
  | matched (verdict : Bool)
  | filtered (records : List Json)
  | stream (records : List Json)

namespace Result

def render (pretty : Bool) : Result → Text
  | validFilter => "Syntax is valid".toList
  | matched verdict => Json.booleanText verdict
  | filtered records =>
    if pretty then Json.pretty (.array records) else Json.compact (.array records)
  | stream records => List.intercalate ['\n'] (records.map Json.compact)

end Result

def judge (filter : Filter) (separator : Char) : List Json → Option Result
  | [] => none
  | [.array items] => some (.filtered (items.filter fun d => filter.holds d separator))
  | [document] => some (.matched (filter.holds document separator))
  | documents => some (.stream (documents.filter fun d => filter.holds d separator))

/-- The filter is judged before the input is looked at, and the whole input before any record. -/
def run (check : Check) : Except Error Result := do
  let filter ← (Filter.parse check.filter).mapError .filter
  if check.syntaxOnly then
    return .validFilter
  match check.input with
  | none => throw .noInput
  | some text =>
    let documents ← (Json.parseStream text).mapError .json
    match judge filter check.separator documents with
    | none => throw .noInput
    | some result => return result

end Check
end RecordFilter
