import FluxGuard.Data.Journal
import FluxGuard.Data.JsonValue
import FluxGuard.Model.Allowlist

/-!
# The JSON log

`write_json_log` and what `monitor` passes to it: each event is one object on a line of its own. No
part of the repository reads the log. `readLog` is what a reader does with such a file, line by line.
-/

namespace FluxGuard

namespace LogLine

/-- The `event` of a line. -/
def event : LogLine → Text
  | .shieldsUp _ => "SHIELDS_UP".toList
  | .autoBlock _ _ => "AUTO_BLOCK".toList
  | .unblock _ _ => "UNBLOCK".toList
  | .tick _ _ _ => "TICK".toList

/-- The `fields` that the line's call passes. -/
def fields : LogLine → List (PyStr × Json)
  | .shieldsUp globalTokens => [(pyStr "global_tokens".toList, .int globalTokens)]
  | .autoBlock ip blockedCount =>
    [(pyStr "ip".toList, .str (pyStr ip)), (pyStr "blocked_count".toList, .int blockedCount)]
  | .unblock ip blockedCount =>
    [(pyStr "ip".toList, .str (pyStr ip)), (pyStr "blocked_count".toList, .int blockedCount)]
  | .tick observedIps blockedCount globalTokens =>
    [(pyStr "observed_ips".toList, .int observedIps), (pyStr "blocked_count".toList, .int blockedCount),
      (pyStr "global_tokens".toList, .int globalTokens)]

end LogLine

/-- The record of an event; its fields can replace what it starts with. -/
def logRecord (ts event : Text) (fields : List (PyStr × Json)) : Dict PyStr Json :=
  fields.foldl (fun record m => record.set m.1 m.2)
    (Dict.ofItems [(pyStr "timestamp".toList, .str (pyStr ts)), (pyStr "event".toList, .str (pyStr event))])

/-- The text that `write_json_log` appends to the log. -/
def writeJsonLog (ts event : Text) (fields : List (PyStr × Json)) : Text :=
  dumps .compact (.obj (logRecord ts event fields).items) ++ ['\n']

/-- The log after some events, each with its time. -/
def logText (lines : List (Text × LogLine)) : Text := lines.flatMap fun l => writeJsonLog l.1 l.2.event l.2.fields

/-! ## Reading it -/

/-- The records of a log; a line that does not load is skipped. -/
def readLog (text : Text) : List (Dict PyStr Json) :=
  (text.splitOn '\n').filterMap fun line =>
    match loads line with
    | some (.obj members) => some (Dict.ofItems members)
    | _ => none

/-- The block or unblock that a record tells of. -/
def blockEntry (record : Dict PyStr Json) : Option (Entry Text) :=
  match record.get? (pyStr "event".toList), record.get? (pyStr "ip".toList),
    record.get? (pyStr "blocked_count".toList) with
  | some (.str event), some (.str ip), some (.int count) =>
    if event = pyStr "AUTO_BLOCK".toList then some (.added (Allowlist.readable ip) count)
    else if event = pyStr "UNBLOCK".toList then some (.removed (Allowlist.readable ip) count)
    else none
  | _, _, _ => none

end FluxGuard
