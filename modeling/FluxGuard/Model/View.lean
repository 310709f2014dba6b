import FluxGuard.Model.Run

/-!
# One source, seen alone

The filter as a machine per source. A `View` is what the maps say about one
source; an `Act` is what an event does as far as that source is concerned: one of
its own packets that the global bucket let through, a map operation on it, or
nothing. `Stage` names the stage of the pipeline that decides a packet.

This is the abstract model: what the filter does to a source, in terms of that
source alone. `FluxGuard.Proof.View` shows that the maps follow it.
-/

namespace FluxGuard

/-- What the maps of its family say about one source. -/
structure View where
  allowed : Bool
  listed : Bool
  meter : Option UInt32
  bucket : Option TokenBucket

/-- The stage that decides a packet. -/
inductive Stage
  | allowed      -- on the allowlist
  | filtered     -- its protocol is dropped
  | blacklisted
  | fresh        -- no bucket yet: one is created
  | admitted     -- the bucket pays
  | exhausted    -- the bucket is empty: the source is blacklisted
deriving DecidableEq

/-- What the stage that decides a packet returns. -/
def Stage.verdict : Stage → Xdp
  | .allowed | .fresh | .admitted => .pass
  | .filtered | .blacklisted | .exhausted => .drop

/-- A packet that gets as far as the token bucket. -/
def Stage.reachesBucket : Stage → Bool
  | .fresh | .admitted | .exhausted => true
  | .allowed | .filtered | .blacklisted => false

/-- The bucket that a first packet leaves. -/
def freshBucket (now : UInt64) : TokenBucket := ⟨now, KERN_PPS_LIMIT - 1⟩

/-- A meter entry after one more packet. -/
def counted (host : Host) : Option UInt32 → Option UInt32
  | some cnt => some (cnt + 1)
  | none => if host.meterUpdate then some 1 else none

/-- The bucket's own decision. -/
def bucketStage (now : UInt64) : Option TokenBucket → Stage
  | none => .fresh
  | some tb => if (tokenBucketCheck tb now).2 then .exhausted else .admitted

/-- What an event is to one source. -/
inductive Act
  | packet (now : UInt64) (host : Host) (filtered room : Bool)
  | allow
  | disallow
  | blacklist
  | unblacklist
  | evictMeter
  | evictRate
  | idle

namespace View

/-- The stage that decides a packet of the source. -/
def stage (v : View) (now : UInt64) (filtered : Bool) : Stage :=
  if v.allowed then .allowed
  else if filtered then .filtered
  else if v.listed then .blacklisted
  else bucketStage now v.bucket

/-- The view after the packet is counted. -/
def metered (v : View) (host : Host) : View := { v with meter := counted host v.meter }

/-- The view after a packet decided by a stage. `room` is whether the blacklist can
take a new key. -/
def packet (v : View) (now : UInt64) (host : Host) (room : Bool) : Stage → View
  | .allowed | .filtered => v
  | .blacklisted => v.metered host
  | .fresh => { v.metered host with bucket := if host.rateUpdate then some (freshBucket now) else none }
  | .admitted => { v.metered host with bucket := v.bucket.map fun tb => (tokenBucketCheck tb now).1 }
  | .exhausted =>
    { v.metered host with
      bucket := v.bucket.map fun tb => (tokenBucketCheck tb now).1
      listed := v.listed || room }

/-- The view after an act. -/
def step (v : View) : Act → View
  | .packet now host filtered room => v.packet now host room (v.stage now filtered)
  | .allow => { v with allowed := true }
  | .disallow => { v with allowed := false }
  | .blacklist => { v with listed := true }
  | .unblacklist => { v with listed := false }
  | .evictMeter => { v with meter := none }
  | .evictRate => { v with bucket := none }
  | .idle => v

end View

/-! ## The views of a kernel state -/

/-- What the maps say about an address. -/
def IpMaps.view {α : Type} [DecidableEq α] {n m : ℕ} (maps : IpMaps α n m) (s : α) : View where
  allowed := (maps.allowlistMap.lookupElem s).isSome
  listed := (maps.blacklistMap.lookupElem s).isSome
  meter := maps.meterMap.get? s
  bucket := maps.rateMap.get? s

/-- The blacklist can take a new key. -/
def IpMaps.room {α : Type} {n m : ℕ} (maps : IpMaps α n m) : Bool :=
  decide (maps.blacklistMap.entries.size < n)

/-- What a map operation is to an address. -/
def IpMaps.act {α : Type} [DecidableEq α] {n m : ℕ} (maps : IpMaps α n m) (s : α) : MapOp α → Act
  | .allow a _ =>
    -- a key that is there is overwritten; a new one needs room
    if a = s ∧ (a ∈ maps.allowlistMap ∨ maps.allowlistMap.entries.size < m) then .allow else .idle
  | .disallow a => if a = s then .disallow else .idle
  | .blacklist a _ =>
    if a = s ∧ (a ∈ maps.blacklistMap ∨ maps.blacklistMap.entries.size < n) then .blacklist else .idle
  | .unblacklist a => if a = s then .unblacklist else .idle
  | .evictMeter a => if a = s then .evictMeter else .idle
  | .evictRate a => if a = s then .evictRate else .idle

namespace Kernel

/-- What the maps say about a source. -/
def view (k : Kernel) : Source → View
  | .v4 a => k.v4.view a
  | .v6 a => k.v6.view a

/-- The blacklist of the source's family can take a new key. -/
def room (k : Kernel) : Source → Bool
  | .v4 _ => k.v4.room
  | .v6 _ => k.v6.room

/-- The protocol filter drops this protocol number. -/
def filters (k : Kernel) (p : UInt8) : Bool := decide (k.protoFilterMap.lookupElem p = some 1)

/-- The global bucket drops a frame that enters now. -/
def overloaded (k : Kernel) (now : UInt64) : Bool := (globalBucketCheck k.globalRateMap now).2

end Kernel

/-- The protocol number the filter reads from a frame of a source. -/
def protoOf (data : List UInt8) : Source → UInt8
  | .v4 _ => protocol data
  | .v6 _ => nexthdr data

/-- What an event does to one source. -/
def Kernel.act (k : Kernel) (s : Source) : Event → Act
  | .frame now host data =>
    if sourceOf data = some s ∧ k.overloaded now = false then
      .packet now host (k.filters (protoOf data s)) (k.room s)
    else .idle
  | .v4 op => match s with
    | .v4 a => k.v4.act a op
    | .v6 _ => .idle
  | .v6 op => match s with
    | .v4 _ => .idle
    | .v6 a => k.v6.act a op
  | .protoSet _ _ => .idle
  | .protoDel _ => .idle

/-- The eviction of a source's bucket from its LRU map. -/
def evictRate : Source → Event
  | .v4 a => .v4 (.evictRate a)
  | .v6 a => .v6 (.evictRate a)

/-- Userspace deletes the source from the blacklist, or adds it to the allowlist. -/
def Kernel.pardons (k : Kernel) (s : Source) (e : Event) : Prop :=
  k.act s e = .unblacklist ∨ k.act s e = .allow

/-- The stage that decides an event, if it is a packet of `s` that passes the global bucket. -/
def Kernel.stageOf (k : Kernel) (s : Source) (e : Event) : Option Stage :=
  match k.act s e with
  | .packet now _ filtered _ => some ((k.view s).stage now filtered)
  | _ => none

end FluxGuard
