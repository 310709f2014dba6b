import FluxGuard.Data.Interleave
import FluxGuard.Model.Metrics

/-!
# The brain and the scraper

`MetricsState` between its two threads: the calls that `monitor` makes on it in a tick, and
`render_prometheus_text` whenever the HTTP server answers a request. Each method holds the
lock from its first to its last read or write of the state.
-/

namespace FluxGuard

/-- A call of `monitor` on the metrics. -/
inductive MetricsCall
  | updateBlockedSet (blockedSet : List Text)
  | updateSnapshot (packetsByIp : Dict Text ℕ) (blockedIps : ℕ)
  | incBlockEvents
  | incUnblockEvents
  | incGlobalPpsExceeded

/-- The state after one of the brain's calls. -/
def MetricsState.call (m : MetricsState) : MetricsCall → MetricsState
  | .updateBlockedSet blockedSet => m.updateBlockedSet blockedSet
  | .updateSnapshot packetsByIp blockedIps => m.updateSnapshot packetsByIp blockedIps
  | .incBlockEvents => m.incBlockEvents
  | .incUnblockEvents => m.incUnblockEvents
  | .incGlobalPpsExceeded => m.incGlobalPpsExceeded

/-- What one tick tells the metrics. The labels are address texts. -/
structure Report (T : Type) where
  shieldsUp : Bool
  detected : ℕ
  unblocked : ℕ
  allCounts : Dict Text ℕ
  /-- The tracked blocks after the expiry. -/
  blockedUntil : Dict Text T
  allCounts_text : ∀ ip ∈ allCounts, ∃ s : Source, s.text = ip
  blockedUntil_text : ∀ ip ∈ blockedUntil, ∃ s : Source, s.text = ip

namespace Report

variable {T : Type} (r : Report T)

/-- The calls before the publication. -/
def events : List MetricsCall :=
  (if r.shieldsUp then [.incGlobalPpsExceeded] else []) ++ List.replicate r.detected .incBlockEvents ++
    List.replicate r.unblocked .incUnblockEvents

/-- The calls of a tick, in order. -/
def calls : List MetricsCall :=
  r.events ++ [.updateBlockedSet r.blockedUntil.keys, .updateSnapshot r.allCounts r.blockedUntil.size]

end Report

/-- The texts that the HTTP thread serves while the brain goes through its ticks. -/
def served {T : Type} (reports : List (Report T)) (schedule : List Turn) : List Text :=
  Guarded.readings MetricsState.call MetricsState.renderPrometheusText
    ⟨MetricsState.init, reports.flatMap Report.calls⟩ schedule

end FluxGuard
