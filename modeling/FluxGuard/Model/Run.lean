import FluxGuard.Model.Filter

/-!
# Runs of the filter

A run is a list of events: frames handled by `fluxguard_filter`, map operations
by userspace (the brain, the allowlist tools, the API) and evictions from the LRU
maps. `kAt es n` is the kernel state after the first `n` events.
-/

namespace FluxGuard

/-- What can happen to one family's maps between two packets. The first four are
userspace system calls; `evictMeter` and `evictRate` are the LRU maps making room. -/
inductive MapOp (α : Type)
  | allow (a : α) (v : UInt32)
  | disallow (a : α)
  | blacklist (a : α) (v : UInt32)
  | unblacklist (a : α)
  | evictMeter (a : α)
  | evictRate (a : α)

/-- What changes the kernel's maps: a frame, or an operation of userspace or of the kernel on a map. -/
inductive Event
  | frame (now : UInt64) (host : Host) (data : List UInt8)
  | v4 (op : MapOp Ip4)
  | v6 (op : MapOp Ip6)
  | protoSet (p : UInt8) (action : UInt32)
  | protoDel (p : UInt8)

/-- A packet source of either family. -/
inductive Source
  | v4 (a : Ip4)
  | v6 (a : Ip6)
deriving DecidableEq

/-- The source of a frame whose IPv4 or IPv6 header is complete. -/
def sourceOf (data : List UInt8) : Option Source :=
  if data.length < 14 then none
  else if ethProto data = ETH_P_IP then
    if data.length < 14 + 20 then none else some (.v4 (saddr4 data))
  else if ethProto data = ETH_P_IPV6 then
    if data.length < 14 + 40 then none else some (.v6 (saddr6 data))
  else none

/-- A map operation on the maps of its family. One that fails leaves them as they are. -/
def IpMaps.apply {α : Type} [DecidableEq α] {n m : ℕ} (maps : IpMaps α n m) : MapOp α → IpMaps α n m
  | .allow a v => { maps with allowlistMap := maps.allowlistMap.update a v }
  | .disallow a => { maps with allowlistMap := maps.allowlistMap.delete a }
  | .blacklist a v => { maps with blacklistMap := maps.blacklistMap.update a v }
  | .unblacklist a => { maps with blacklistMap := maps.blacklistMap.delete a }
  | .evictMeter a => { maps with meterMap := maps.meterMap.erase a }
  | .evictRate a => { maps with rateMap := maps.rateMap.erase a }

/-- The kernel after one event. -/
def Kernel.step (k : Kernel) : Event → Kernel
  | .frame now host data => (fluxguardFilter k now host data).1
  | .v4 op => { k with v4 := k.v4.apply op }
  | .v6 op => { k with v6 := k.v6.apply op }
  | .protoSet p action => { k with protoFilterMap := k.protoFilterMap.update p action }
  | .protoDel p => { k with protoFilterMap := k.protoFilterMap.delete p }

/-- The verdict on a frame. -/
def Kernel.verdict (k : Kernel) : Event → Option Xdp
  | .frame now host data => some (fluxguardFilter k now host data).2
  | _ => none

/-- The time at which a frame enters the filter. -/
def Event.now : Event → Option UInt64
  | .frame now _ _ => some now
  | _ => none

/-- The source whose packet an event is. -/
def Event.source : Event → Option Source
  | .frame _ _ data => sourceOf data
  | _ => none

/-- The kernel after some events. -/
def run (k : Kernel) (es : List Event) : Kernel := es.foldl Kernel.step k

theorem run_cons (k : Kernel) (e : Event) (es : List Event) : run k (e :: es) = run (k.step e) es := rfl

/-- A run in two parts. -/
theorem run_append (k : Kernel) (es fs : List Event) : run k (es ++ fs) = run (run k es) fs :=
  List.foldl_append ..

/-- A run and one event more. -/
theorem run_concat (k : Kernel) (es : List Event) (e : Event) : run k (es ++ [e]) = (run k es).step e := by
  rw [run_append]; rfl

variable (k₀ : Kernel) (es : List Event)

/-- The kernel after the first `n` events. -/
def kAt (n : ℕ) : Kernel := run k₀ (es.take n)

@[simp] theorem kAt_zero : kAt k₀ es 0 = k₀ := by simp [kAt, run]

/-- One event more is one step more. -/
theorem kAt_succ {n : ℕ} (hn : n < es.length) : kAt k₀ es (n + 1) = (kAt k₀ es n).step es[n] := by
  simp only [kAt, run]
  rw [List.take_add_one, List.getElem?_eq_getElem hn, Option.toList_some, List.foldl_append]
  rfl

/-- The kernel after all the events is the one the run leaves. -/
theorem kAt_length : kAt k₀ es es.length = run k₀ es := by simp [kAt]

/-- The frames' clock readings never decrease. -/
def Chronological (es : List Event) : Prop := (es.filterMap Event.now).Pairwise (· ≤ ·)

/-! ## The shortest frames -/

/-- The shortest IPv4 frame from `a.b.c.d` with protocol number `p`. -/
def ip4Frame (a b c d p : UInt8) : List UInt8 :=
  List.replicate 12 0 ++ [8, 0] ++ List.replicate 9 0 ++ [p, 0, 0, a, b, c, d] ++ List.replicate 4 0

/-- `10.0.1.5`, as the filter loads it. -/
def victim : Source := .v4 0x0501000A

theorem sourceOf_victim : sourceOf (ip4Frame 10 0 1 5 6) = some victim := by decide

/-- A packet during which the kernel around the filter does what it can. -/
def quiet : Host := ⟨0, true, true, none⟩

/-- Two packets of the victim, 1.5 ms apart. -/
def twoFrames : List Event :=
  [.frame 200000000 quiet (ip4Frame 10 0 1 5 6), .frame 201500000 quiet (ip4Frame 10 0 1 5 6)]

end FluxGuard
