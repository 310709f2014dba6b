import FluxGuard.Model.Maps

/-!
# `fluxguard_filter`

The XDP program, stage by stage, on the bytes of a frame. The clock is read once
at entry (`now`); what the rest of the kernel decides during the packet (the CPU
it runs on, whether an LRU insert and a ring-buffer reservation succeed) is the
argument `host`.
-/

namespace FluxGuard

/-- Packets a second, and the burst, of one source. -/
def KERN_PPS_LIMIT : Int64 := 1000

/-- Packets a second, and the burst, of all sources together. -/
def GLOBAL_PPS_LIMIT : Int64 := 500000

/-- `XDP_PASS` and `XDP_DROP`. -/
inductive Xdp
  | pass
  | drop
deriving DecidableEq, Repr

/-- What the kernel around the filter decides during one packet. `reserve` is the
record `bpf_ringbuf_reserve` hands out, with whatever its memory held before. -/
structure Host where
  cpu : ℕ
  meterUpdate : Bool
  rateUpdate : Bool
  reserve : Option AttackEvent

/-! ## Token buckets -/

/-- `elapsed_ns * limit / 1000000000`, in `u64` arithmetic. -/
def refillOf (elapsed limit : UInt64) : UInt64 := elapsed * limit / 1000000000

/-- `token_bucket_check`; `true` is DROP. -/
def tokenBucketCheck (tb : TokenBucket) (now : UInt64) : TokenBucket × Bool :=
  let elapsedNs := now - tb.lastTime
  let tb :=
    if elapsedNs > 0 then
      let refill := refillOf elapsedNs KERN_PPS_LIMIT.toUInt64
      if refill > 0 then
        let tokens := tb.tokens + refill.toInt64
        { lastTime := now, tokens := if tokens > KERN_PPS_LIMIT then KERN_PPS_LIMIT else tokens }
      else tb
    else tb
  let tokens := tb.tokens - 1
  ({ tb with tokens := tokens }, decide (tokens < 0))

/-- The global Shields-Up bucket of `fluxguard_filter`; `true` is DROP. -/
def globalBucketCheck (gtb : TokenBucket) (now : UInt64) : TokenBucket × Bool :=
  let gElapsed := now - gtb.lastTime
  let gtb :=
    if gElapsed > 100000000 then -- refill every 100ms
      let gRefill := refillOf gElapsed GLOBAL_PPS_LIMIT.toUInt64
      let tokens := gtb.tokens + gRefill.toInt64
      { lastTime := now, tokens := if tokens > GLOBAL_PPS_LIMIT then GLOBAL_PPS_LIMIT else tokens }
    else gtb
  let tokens := gtb.tokens - 1
  if tokens < 0 then
    ({ gtb with tokens := if tokens < -100000 then -100000 else tokens }, true)
  else ({ gtb with tokens := tokens }, false)

/-! ## The two address families -/

/-- `__sync_fetch_and_add` on a present meter entry, an insert of 1 otherwise. -/
def meter {α : Type} [DecidableEq α] (m : Dict α UInt32) (host : Host) (src : α) : Dict α UInt32 :=
  match m.get? src with
  | some cnt => m.set src (cnt + 1)
  | none => if host.meterUpdate then m.set src 1 else m

/-- The IPv4 path of `fluxguard_filter`, after the header check. -/
def ipv4Path (k : Kernel) (now : UInt64) (host : Host) (srcIp : Ip4) (ipProto : UInt8) : Kernel × Xdp :=
  -- 1. Allowlist bypass
  if (k.v4.allowlistMap.lookupElem srcIp).isSome then (k, .pass)
  -- 2. Protocol filter
  else if k.protoFilterMap.lookupElem ipProto = some 1 then (k, .drop)
  else
    -- 3. Meter
    let k := { k with v4 := { k.v4 with meterMap := meter k.v4.meterMap host srcIp } }
    -- 4. Blacklist check
    if (k.v4.blacklistMap.lookupElem srcIp).isSome then (k, .drop)
    -- 5. Per-IP token bucket
    else match k.v4.rateMap.get? srcIp with
      | some tb =>
        let (tb', dropped) := tokenBucketCheck tb now
        let k := { k with v4 := { k.v4 with rateMap := k.v4.rateMap.set srcIp tb' } }
        if dropped then
          let k := { k with v4 := { k.v4 with blacklistMap := k.v4.blacklistMap.update srcIp 1 } }
          let ring := match host.reserve with
            | some ev => k.eventRingbuf ++
                [{ ev with af := 4, reason := 1, pad := 0, srcV4 := srcIp, timestamp := now }]
            | none => k.eventRingbuf
          ({ k with eventRingbuf := ring }, .drop)
        else (k, .pass)
      | none =>
        let newTb : TokenBucket := { lastTime := now, tokens := KERN_PPS_LIMIT - 1 }
        let rate := if host.rateUpdate then k.v4.rateMap.set srcIp newTb else k.v4.rateMap
        ({ k with v4 := { k.v4 with rateMap := rate } }, .pass)

/-- The IPv6 path of `fluxguard_filter`, after the header check. -/
def ipv6Path (k : Kernel) (now : UInt64) (host : Host) (src6 : Ip6) (ip6Proto : UInt8) : Kernel × Xdp :=
  -- 1. Allowlist bypass
  if (k.v6.allowlistMap.lookupElem src6).isSome then (k, .pass)
  -- 2. Protocol filter (shared map, same proto numbers)
  else if k.protoFilterMap.lookupElem ip6Proto = some 1 then (k, .drop)
  else
    -- 3. Meter
    let k := { k with v6 := { k.v6 with meterMap := meter k.v6.meterMap host src6 } }
    -- 4. Blacklist check
    if (k.v6.blacklistMap.lookupElem src6).isSome then (k, .drop)
    -- 5. Per-IP token bucket
    else match k.v6.rateMap.get? src6 with
      | some tb6 =>
        let (tb', dropped) := tokenBucketCheck tb6 now
        let k := { k with v6 := { k.v6 with rateMap := k.v6.rateMap.set src6 tb' } }
        if dropped then
          let k := { k with v6 := { k.v6 with blacklistMap := k.v6.blacklistMap.update src6 1 } }
          let ring := match host.reserve with
            | some ev => k.eventRingbuf ++
                [{ ev with
                   af := 6, reason := 1, pad := 0, srcV4 := 0, srcV6 := src6, timestamp := now }]
            | none => k.eventRingbuf
          ({ k with eventRingbuf := ring }, .drop)
        else (k, .pass)
      | none =>
        let newTb : TokenBucket := { lastTime := now, tokens := KERN_PPS_LIMIT - 1 }
        let rate := if host.rateUpdate then k.v6.rateMap.set src6 newTb else k.v6.rateMap
        ({ k with v6 := { k.v6 with rateMap := rate } }, .pass)

/-! ## Frames -/

/-- The byte at an offset of the frame. -/
def byteAt (data : List UInt8) (i : ℕ) : UInt8 := data.getD i 0

/-- `eth->h_proto`, in host order. -/
def ethProto (data : List UInt8) : UInt16 :=
  (byteAt data 12).toUInt16 <<< 8 ||| (byteAt data 13).toUInt16

/-- The `h_proto` of IPv4. -/
def ETH_P_IP : UInt16 := 0x0800

/-- The `h_proto` of IPv6. -/
def ETH_P_IPV6 : UInt16 := 0x86DD

/-- A little-endian load of four bytes. -/
def loadU32 (data : List UInt8) (i : ℕ) : UInt32 :=
  (byteAt data i).toUInt32 ||| (byteAt data (i + 1)).toUInt32 <<< 8 |||
    (byteAt data (i + 2)).toUInt32 <<< 16 ||| (byteAt data (i + 3)).toUInt32 <<< 24

/-- `iph->saddr` and `iph->protocol`. -/
def saddr4 (data : List UInt8) : Ip4 := loadU32 data (14 + 12)

/-- `iph->protocol`. -/
def protocol (data : List UInt8) : UInt8 := byteAt data (14 + 9)

/-- `ip6h->saddr` and `ip6h->nexthdr`. -/
def saddr6 (data : List UInt8) : Ip6 := Vector.ofFn fun i => byteAt data (14 + 8 + i)

/-- `ip6h->nexthdr`. -/
def nexthdr (data : List UInt8) : UInt8 := byteAt data (14 + 6)

/-- The rest of `fluxguard_filter`, after the global bucket let the frame through. -/
def dispatch (k : Kernel) (now : UInt64) (host : Host) (data : List UInt8) : Kernel × Xdp :=
  if ethProto data = ETH_P_IP then
    if data.length < 14 + 20 then (k, .pass)
    else ipv4Path k now host (saddr4 data) (protocol data)
  else if ethProto data = ETH_P_IPV6 then
    if data.length < 14 + 40 then (k, .pass)
    else ipv6Path k now host (saddr6 data) (nexthdr data)
  else (k, .pass)

/-- The per-CPU packet counter. -/
def countPacket (k : Kernel) (cpu : ℕ) : Kernel :=
  { k with globalCounterMap := k.globalCounterMap.modify cpu (· + 1) }

/-- `fluxguard_filter`: frames shorter than an Ethernet header pass uncounted, and all others pay the
global bucket first. -/
def fluxguardFilter (k : Kernel) (now : UInt64) (host : Host) (data : List UInt8) : Kernel × Xdp :=
  if data.length < 14 then (k, .pass)
  else
    let k := countPacket k host.cpu
    let (gtb, dropped) := globalBucketCheck k.globalRateMap now
    let k := { k with globalRateMap := gtb }
    if dropped then (k, .drop) else dispatch k now host data

end FluxGuard
