import FluxGuard.Model.Metrics
import Mathlib.Data.Rat.Defs
import Mathlib.Algebra.Order.Field.Rat

/-!
# The dashboard

What `main` of the dashboard does in one turn of its loop: it fetches the metrics text,
parses it and renders a screen, with the packet counts of the turn before at hand. The
ring-buffer events below the table are those of `FluxGuard.Model.Ringbuf`.
-/

namespace FluxGuard

/-- A line of the table. `diff` is what `render` divides by `dt`. -/
structure Row where
  ip : Text
  blocked : Bool
  cnt : ℤ
  diff : ℤ

/-- The rate on a line of the table, before it is rounded for display. -/
def Row.pps (r : Row) (dt : ℚ) : ℚ := if dt > 0 then r.diff / dt else 0

/-- `sorted(packets.items(), key=lambda x: x[1], reverse=True)[:12]`. -/
def top (packets : Dict Text ℤ) : List (Text × ℤ) :=
  (packets.items.mergeSort fun p q => decide (q.2 ≤ p.2)).take 12

/-- The table of `render`. -/
def rows (p : Parsed) (prevPackets : Dict Text ℤ) : List Row :=
  (top p.packets).map fun (ip, cnt) =>
    { ip, blocked := decide (ip ∈ p.blockedSet), cnt, diff := cnt - (prevPackets.get? ip).getD cnt }

/-- The screen of `render`, ring-buffer events left out. -/
structure Screen where
  table : List Row
  totalIps : ℕ
  blockedCount : ℤ
  shieldsUp : ℤ
  blockEvents : ℤ
  unblockEvents : ℤ

/-- `parse_metrics(text) if text else ({}, set(), 0, 0, 0, 0)`: the text is empty when the fetch failed. -/
def parseFetched (text : Text) : Option Parsed :=
  if text = [] then some ⟨Dict.empty, ∅, 0, 0, 0, 0⟩ else parseMetrics text

/-- A turn of the loop: the screen and the next `prev_packets`. `none` is an exception that
`parse_metrics` lets out. -/
def refresh (prevPackets : Dict Text ℤ) (text : Text) : Option (Screen × Dict Text ℤ) := do
  let p ← parseFetched text
  return ({ table := rows p prevPackets, totalIps := p.packets.size, blockedCount := p.blockedCount,
            shieldsUp := p.shieldsUp, blockEvents := p.blockEvents, unblockEvents := p.unblockEvents }, p.packets)

end FluxGuard
