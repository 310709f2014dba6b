import FluxGuard.Data.PyText
import FluxGuard.Model.World

/-!
# The metrics text

`MetricsState.render_prometheus_text`, which the exporter serves, and `parse_metrics`, with
which the dashboard reads it.
-/

namespace FluxGuard

/-! ## The exporter -/

/-- `sorted` of the items of a dictionary. -/
def sortedItems (d : Dict Text ℕ) : List (Text × ℕ) :=
  d.items.mergeSort fun p q => decide (p.1 < q.1 ∨ p.1 = q.1 ∧ p.2 ≤ q.2)

/-- `sorted` of the members of a set. -/
def sortedSet (s : List Text) : List Text := s.mergeSort fun a b => decide (a ≤ b)

/-- A label value between quotes. -/
def safe (ip : Text) : Text := replaceChar '\x22' ['\x5c', '\x22'] (replaceChar '\x5c' ['\x5c', '\x5c'] ip)

/-- `%d`. -/
def formatInt (n : ℕ) : Text := Nat.toDigits 10 n

/-- The line of one packet counter. -/
def packetsLine (p : Text × ℕ) : Text :=
  "fluxguard_meter_packets\x7bip=\x22".toList ++ safe p.1 ++ "\x22\x7d ".toList ++ formatInt p.2

/-- The line of one blocked source. -/
def blockedLine (ip : Text) : Text := "fluxguard_blocked_ip\x7bip=\x22".toList ++ safe ip ++ "\x22\x7d 1".toList

/-- The lines of the text, the empty last one left out. -/
def MetricsState.lines (m : MetricsState) : List Text :=
  ["# HELP fluxguard_meter_packets Current packet counter per source IP (IPv4 or IPv6) from meter_maps.".toList,
    "# TYPE fluxguard_meter_packets gauge".toList] ++
  (sortedItems m.packetsByIp).map packetsLine ++
  ["# HELP fluxguard_blocked_ips Number of IPs currently blocked by the brain.".toList,
    "# TYPE fluxguard_blocked_ips gauge".toList,
    "fluxguard_blocked_ips ".toList ++ formatInt m.blockedIps] ++
  (if m.blockedIpsSet = [] then []
    else
      ["# HELP fluxguard_blocked_ip Per-IP block status (1 = currently blocked, supports IPv4/IPv6).".toList,
        "# TYPE fluxguard_blocked_ip gauge".toList] ++
      (sortedSet m.blockedIpsSet).map blockedLine) ++
  ["# HELP fluxguard_block_events_total Cumulative block events.".toList,
    "# TYPE fluxguard_block_events_total counter".toList,
    "fluxguard_block_events_total ".toList ++ formatInt m.blockEvents,
    "# HELP fluxguard_unblock_events_total Cumulative unblock events.".toList,
    "# TYPE fluxguard_unblock_events_total counter".toList,
    "fluxguard_unblock_events_total ".toList ++ formatInt m.unblockEvents,
    "# HELP fluxguard_global_pps_exceeded_total Global Shields-Up events triggered.".toList,
    "# TYPE fluxguard_global_pps_exceeded_total counter".toList,
    "fluxguard_global_pps_exceeded_total ".toList ++ formatInt m.globalPpsExceeded]

/-- `render_prometheus_text`. -/
def MetricsState.renderPrometheusText (m : MetricsState) : Text := joinLines (m.lines ++ [[]])

/-! ## The dashboard -/

/-- What `parse_metrics` returns. -/
structure Parsed where
  packets : Dict Text ℤ
  blockedSet : Finset Text
  blockedCount : ℤ
  blockEvents : ℤ
  unblockEvents : ℤ
  shieldsUp : ℤ

/-- `line.split('"')[1]`; `none` is an `IndexError`. -/
def quoted (line : Text) : Option Text := (line.splitOn '\x22')[1]?

/-- `int(line.split()[-1])`; `none` is an `IndexError` or a `ValueError`. -/
def lastInt (line : Text) : Option ℤ := (splitWords line).getLast?.bind pyInt

/-- One pass of the loop of `parse_metrics`; `none` for an exception. -/
def parseLine (p : Parsed) (line : Text) : Option Parsed :=
  if "fluxguard_meter_packets\x7bip=\x22".toList.isPrefixOf line then do
    let ip ← quoted line
    let cnt ← lastInt line
    some { p with packets := p.packets.set ip cnt }
  else if "fluxguard_blocked_ips ".toList.isPrefixOf line then do
    let n ← lastInt line
    some { p with blockedCount := n }
  else if "fluxguard_block_events_total ".toList.isPrefixOf line then do
    let n ← lastInt line
    some { p with blockEvents := n }
  else if "fluxguard_unblock_events_total ".toList.isPrefixOf line then do
    let n ← lastInt line
    some { p with unblockEvents := n }
  else if "fluxguard_global_pps_exceeded_total ".toList.isPrefixOf line then do
    let n ← lastInt line
    some { p with shieldsUp := n }
  else if "fluxguard_blocked_ip\x7bip=\x22".toList.isPrefixOf line then do
    let ip ← quoted line
    some { p with blockedSet := insert ip p.blockedSet }
  else some p

/-- `parse_metrics`; `none` is an exception. -/
def parseMetrics (text : Text) : Option Parsed := (splitLines text).foldlM parseLine ⟨Dict.empty, ∅, 0, 0, 0, 0⟩

end FluxGuard
