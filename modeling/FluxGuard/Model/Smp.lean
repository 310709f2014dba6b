import FluxGuard.Model.View

/-!
# The filter on several CPUs

Each packet reads the clock when it enters the filter and is charged to the buckets
later, while other packets enter and are charged. The charge of the global bucket and
the rest of the filter are one step each; what happens to the maps between a packet's
list checks and its bucket is covered by map operations just before that step.

* `Smp.step`: a packet enters, is charged to the global bucket, or finishes.
* `Smp.LawfulStep`: a step mints no tokens and moves no clock backwards.
* `Smp.InOrder`: the packet is not older than the bucket's last refill, or so much older
  that the wrapped difference earns nothing.
-/

namespace FluxGuard

/-- A packet inside the filter. -/
structure InFlight where
  now : UInt64
  host : Host
  data : List UInt8

/-- The filter on several CPUs: the maps, the clock, and the packets on their way through. -/
structure Smp where
  kern : Kernel
  clock : UInt64
  /-- Packets that have read the clock. -/
  entered : List InFlight
  /-- Packets that the global bucket let through. -/
  admitted : List InFlight

/-- The steps of a packet, and what else happens between them. -/
inductive SmpEvent
  | tick (t : UInt64)
  | enter (host : Host) (data : List UInt8)
  | charge (i : ℕ)
  | finish (i : ℕ)
  | op (e : Event)

namespace Smp

/-- The maps as the loader creates them, and no packet under way. -/
def init (cpus : ℕ) : Smp := ⟨Kernel.init cpus, 0, [], []⟩

/-- `fluxguard_filter` up to the global bucket; `true` if the packet goes on. -/
def chargeGlobal (k : Kernel) (p : InFlight) : Kernel × Bool :=
  if p.data.length < 14 then (k, false)
  else
    let k := countPacket k p.host.cpu
    let (gtb, dropped) := globalBucketCheck k.globalRateMap p.now
    ({ k with globalRateMap := gtb }, !dropped)

/-- One step. An index with no packet behind it does nothing. -/
def step (m : Smp) : SmpEvent → Smp
  | .tick t => if m.clock ≤ t then { m with clock := t } else m
  | .enter host data => { m with entered := m.entered ++ [⟨m.clock, host, data⟩] }
  | .charge i =>
    match m.entered[i]? with
    | some p =>
      let (k, goesOn) := chargeGlobal m.kern p
      { m with
        kern := k
        entered := m.entered.eraseIdx i
        admitted := if goesOn then m.admitted ++ [p] else m.admitted }
    | none => m
  | .finish i =>
    match m.admitted[i]? with
    | some p =>
      { m with
        kern := (dispatch m.kern p.now p.host p.data).1
        admitted := m.admitted.eraseIdx i }
    | none => m
  | .op e => if e.now = none then { m with kern := m.kern.step e } else m

/-- The system after the first `n` events. -/
def sAt (cpus : ℕ) (es : List SmpEvent) (n : ℕ) : Smp := (es.take n).foldl step (init cpus)

/-! ## The law of a bucket step -/

/-- The tokens that the time from `last` to `now` earns, none if `now` is older. -/
def earned (limit : ℕ) (last now : UInt64) : ℕ := (now.toNat - last.toNat) * limit / 1000000000

/-- A step at `now` takes a source's bucket from `tb` to `tb'` and mints nothing. -/
structure SourceLaw (tb tb' : TokenBucket) (now : UInt64) : Prop where
  clock : tb.lastTime ≤ tb'.lastTime
  tokens : tb'.tokens.toInt ≤ tb.tokens.toInt + earned 1000 tb.lastTime now - 1

/-- The same for the global bucket, whose debt is clamped. -/
structure GlobalLaw (tb tb' : TokenBucket) (now : UInt64) : Prop where
  clock : tb.lastTime ≤ tb'.lastTime
  tokens : tb'.tokens.toInt ≤ max (tb.tokens.toInt + earned 500000 tb.lastTime now - 1) (-100000)

/-- Packet `p` reaches the bucket `tb` of source `s`. -/
def Reaches (k : Kernel) (p : InFlight) (s : Source) (tb : TokenBucket) : Prop :=
  sourceOf p.data = some s ∧ (k.view s).bucket = some tb ∧
    ((k.view s).stage p.now (k.filters (protoOf p.data s))).reachesBucket = true

/-- The bucket step of an event, if it makes one, mints no tokens. -/
def LawfulStep (m : Smp) : SmpEvent → Prop
  | .charge i => ∀ p, m.entered[i]? = some p → ¬ p.data.length < 14 →
      GlobalLaw m.kern.globalRateMap (m.step (.charge i)).kern.globalRateMap p.now
  | .finish i => ∀ p s tb tb', m.admitted[i]? = some p → Reaches m.kern p s tb →
      ((m.step (.finish i)).kern.view s).bucket = some tb' → SourceLaw tb tb' p.now
  | .tick _ | .enter _ _ | .op _ => True

/-- A source's bucket meets a packet in order: the packet is not older than the last
refill, or the product of the wrapped difference is below one token. -/
def SourceInOrder (last now : UInt64) : Prop :=
  last ≤ now ∨ (now - last).toNat * 1000 % 2 ^ 64 < 1000000000

/-- The bucket step of an event, if it makes one, is in order. -/
def InOrder (m : Smp) : SmpEvent → Prop
  | .charge i => ∀ p, m.entered[i]? = some p → ¬ p.data.length < 14 →
      m.kern.globalRateMap.lastTime ≤ p.now ∨ (p.now - m.kern.globalRateMap.lastTime).toNat ≤ 100000000
  | .finish i => ∀ p s tb, m.admitted[i]? = some p → Reaches m.kern p s tb → SourceInOrder tb.lastTime p.now
  | .tick _ | .enter _ _ | .op _ => True

end Smp

end FluxGuard
