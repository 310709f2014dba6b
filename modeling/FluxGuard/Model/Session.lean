import FluxGuard.Data.Bytes
import FluxGuard.Model.Dashboard
import FluxGuard.Model.Ringbuf
import Mathlib.Data.List.DropRight

/-!
# A session of the dashboard

The loop of `main` in the dashboard: each turn fetches the metrics, drains the ring buffer if it is
mapped, and renders a page. From one turn to the next live the packet counts, the last events of the
ring buffer and the time.
-/

namespace FluxGuard

/-- The local variables of `main` that live from one turn to the next. -/
structure Session where
  prevPackets : Dict Text ℤ
  accumulatedRbEvents : List RbEvent
  lastTime : ℚ

/-- What a turn finds. -/
structure Look where
  /-- The body of the exporter's answer; `none` is an exception of `urlopen` or `read`. -/
  response : Option (List UInt8)
  now : ℚ
  /-- The mapping of the ring buffer. -/
  memory : Mmap

/-- What `render` prints. -/
structure Page where
  screen : Screen
  dt : ℚ
  /-- The addresses and reasons below the table. The time on their lines is that of the page. -/
  events : List (Text × Text)

/-- `fetch_metrics`: a body that is no UTF-8 is an exception too. -/
def fetchMetrics (response : Option (List UInt8)) : Text := (response.bind decodeUtf8).getD []

/-- The name that the event list shows for a reason. -/
def reasonStr (reason : ℕ) : Text :=
  if reason = 1 then "AUTO_BLOCK".toList else "REASON_".toList ++ Nat.toDigits 10 reason

/-- The lines about the events; `rb_events[-8:]`. -/
def eventRows (rbEvents : List RbEvent) : List (Text × Text) :=
  (rbEvents.rtake 8).map fun e => (e.1, reasonStr e.2.1)

/-- The events of a turn; `none` is a `struct.error`. Without a ring buffer there are none. -/
def newEvents (rbState : Option Mapping) (memory : Mmap) : Option (List RbEvent × Mmap) :=
  match rbState with
  | none => some ([], memory)
  | some m => drainRingbuf m.pageSize memory m.dataOffset RINGBUF_DEFAULT_SIZE

/-- Only the last 50 events are kept. -/
def accumulate (accumulated new : List RbEvent) : List RbEvent :=
  if (accumulated ++ new).length > 50 then (accumulated ++ new).rtake 50 else accumulated ++ new

namespace Session

/-- One turn; `none` is an exception that ends the dashboard. -/
def turn (rbState : Option Mapping) (refreshSec : ℚ) (s : Session) (l : Look) : Option (Page × Session) := do
  let dt := if l.now > s.lastTime then l.now - s.lastTime else refreshSec
  let (screen, packets) ← refresh s.prevPackets (fetchMetrics l.response)
  let (new, _) ← newEvents rbState l.memory
  let events := accumulate s.accumulatedRbEvents new
  return (⟨screen, dt, eventRows events⟩, ⟨packets, events, l.now⟩)

/-- The pages of some turns, and the session after them. -/
def run (rbState : Option Mapping) (refreshSec : ℚ) : Session → List Look → Option (List Page × Session)
  | s, [] => some ([], s)
  | s, l :: looks => do
    let (page, s) ← s.turn rbState refreshSec l
    let (pages, s) ← run rbState refreshSec s looks
    return (page :: pages, s)

/-- `main` before its loop. -/
def start (time : ℚ) : Session := ⟨Dict.empty, [], time⟩

end Session

end FluxGuard
