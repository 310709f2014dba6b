import FluxGuard.Proof.Agree

/-!
# The IPv6 pipeline mirrors the IPv4 pipeline

`f` renames IPv4 addresses to IPv6 addresses. `Mirrors f e e'`: the event `e'` is `e`
with every IPv4 address `a` replaced by `f a`. `Corresponds f k k'`: the IPv6 maps of `k'` are
the IPv4 maps of `k` renamed, and what the families share is the same.

* `Corresponds.step`: mirrored events keep corresponding kernels corresponding, with
  the same verdict.
* `ipv6_mirrors_ipv4`: so do whole runs.
-/

namespace FluxGuard

/-- Two records report the same event about `a` and about `f a`. -/
def Mirrored (f : Ip4 → Ip6) (ev ev' : AttackEvent) : Prop :=
  ev.af = 4 ∧ ev'.af = 6 ∧ ev'.reason = ev.reason ∧ ev'.timestamp = ev.timestamp ∧ ev'.srcV6 = f ev.srcV4

/-- The same event, about IPv6 instead of IPv4. A packet keeps its time, its protocol number
and its CPU, and the ring buffer has a record for both or for neither. -/
inductive Mirrors (f : Ip4 → Ip6) : Event → Event → Prop
  | frame {now : UInt64} {host host' : Host} {data data' : List UInt8} {a : Ip4}
      (source : sourceOf data = some (.v4 a)) (source' : sourceOf data' = some (.v6 (f a)))
      (proto : nexthdr data' = protocol data) (cpu : host'.cpu = host.cpu)
      (reserve : host'.reserve.isSome = host.reserve.isSome) :
      Mirrors f (.frame now host data) (.frame now host' data')
  | op (op : MapOp Ip4) : Mirrors f (.v4 op) (.v6 (op.map f))
  | protoSet (p : UInt8) (action : UInt32) : Mirrors f (.protoSet p action) (.protoSet p action)
  | protoDel (p : UInt8) : Mirrors f (.protoDel p) (.protoDel p)

/-- The IPv6 maps of `k'` are the IPv4 maps of `k`, renamed. -/
structure Corresponds (f : Ip4 → Ip6) (k k' : Kernel) : Prop where
  renamed : ∀ a, k.v4.Agree a k'.v6 (f a)
  /-- No other address has an entry. -/
  other : ∀ b, (∀ a, b ≠ f a) → k'.v6.Agree b (IpMaps.empty : IpMaps Ip6 MAX_ENTRIES_V6 256) b
  protoFilter : k'.protoFilterMap = k.protoFilterMap
  globalRate : k'.globalRateMap = k.globalRateMap
  globalCounter : k'.globalCounterMap = k.globalCounterMap
  events : List.Forall₂ (Mirrored f) k.eventRingbuf k'.eventRingbuf

/-- The verdict on event `n` of a run. -/
def verdictAt (k₀ : Kernel) (es : List Event) (n : ℕ) : Option Xdp := es[n]?.bind (kAt k₀ es n).verdict

/-- The records that are emitted correspond. -/
theorem emitted_mirrored {f : Ip4 → Ip6} {host host' : Host} (hr : host'.reserve.isSome = host.reserve.isSome) (a : Ip4)
    (now : UInt64) (st : Stage) :
    List.Forall₂ (Mirrored f) (emitted host (writeEvent4 a now) st) (emitted host' (writeEvent6 (f a) now) st) := by
  cases st with
  -- the only stage that writes a record, if the ring buffer has room
  | exhausted =>
    cases h : host.reserve with
    | none =>
      rw [h, Option.isSome_none, Option.isSome_eq_false_iff, Option.isNone_iff_eq_none] at hr
      rw [emitted, emitted, h, hr]
      exact List.Forall₂.nil
    | some ev =>
      rw [h, Option.isSome_some, Option.isSome_iff_exists] at hr
      obtain ⟨ev', hr⟩ := hr
      rw [emitted, emitted, h, hr]
      exact List.Forall₂.cons ⟨rfl, rfl, rfl, rfl, rfl⟩ List.Forall₂.nil
  | allowed => exact List.Forall₂.nil
  | filtered => exact List.Forall₂.nil
  | blacklisted => exact List.Forall₂.nil
  | fresh => exact List.Forall₂.nil
  | admitted => exact List.Forall₂.nil

namespace Corresponds

variable {f : Ip4 → Ip6} {k k' : Kernel}

/-- Corresponding kernels have one aggregate bucket. -/
theorem overloaded (h : Corresponds f k k') (now : UInt64) : k'.overloaded now = k.overloaded now := by
  unfold Kernel.overloaded
  rw [h.globalRate]

/-- They filter the same protocols. -/
theorem filters (h : Corresponds f k k') (p : UInt8) : k'.filters p = k.filters p := by
  unfold Kernel.filters
  rw [h.protoFilter]

/-- They are charged alike. -/
theorem charged (h : Corresponds f k k') (now : UInt64) {host host' : Host} (hcpu : host'.cpu = host.cpu) :
    Corresponds f (charged k now host) (charged k' now host') where
  renamed := h.renamed
  other := h.other
  protoFilter := h.protoFilter
  globalRate := by simp only [FluxGuard.charged, h.globalRate]
  globalCounter := by simp only [FluxGuard.charged, countPacket, hcpu, h.globalCounter]
  events := h.events

/-- A packet that the global bucket lets through, and its mirror image. -/
theorem packet (hf : Function.Injective f) (h : Corresponds f k k') (hr : k.Roomy) (hr' : k'.Roomy) (now : UInt64)
    {host host' : Host} (hcpu : host'.cpu = host.cpu) (hm : host.meterUpdate = host'.meterUpdate)
    (hu : host.rateUpdate = host'.rateUpdate) (hres : host'.reserve.isSome = host.reserve.isSome) (a : Ip4)
    (st : Stage) : Corresponds f (k.packet4 now host a st) (k'.packet6 now host' (f a) st) where
  renamed := by
    intro c
    -- the address of the packet, or one that the packet and its image both leave alone
    by_cases hc : c = a
    · subst hc
      exact (h.renamed c).packet hr.1 hr'.2 hm hu now st
    · have hfc : f c ≠ f a := fun he => hc (hf he)
      exact ((((h.renamed c).packet_of_ne hc now host st).symm).packet_of_ne hfc now host' st).symm
  other := fun b hb => (h.other b hb).packet_of_ne (hb a) now host' st
  protoFilter := h.protoFilter
  globalRate := (h.charged now hcpu).globalRate
  globalCounter := (h.charged now hcpu).globalCounter
  events := List.rel_append h.events (emitted_mirrored hres a now st)

/-- Operations that correspond keep the correspondence. -/
theorem op (hf : Function.Injective f) (h : Corresponds f k k') (hr : k.Roomy) (hr' : k'.Roomy) (op : MapOp Ip4) :
    Corresponds f (k.step (.v4 op)) (k'.step (.v6 (op.map f))) where
  renamed := by
    intro c
    by_cases hc : op.key = c
    · exact (h.renamed c).apply hr.1 hr'.2 hc
    · have hfc : f c ≠ (op.map f).key := by
        rw [MapOp.key_map]
        intro he
        exact hc (hf he).symm
      exact ((((h.renamed c).apply_of_ne (Ne.symm hc)).symm).apply_of_ne hfc).symm
  other := fun b hb => (h.other b hb).apply_of_ne (by rw [MapOp.key_map]; exact hb op.key)
  protoFilter := h.protoFilter
  globalRate := h.globalRate
  globalCounter := h.globalCounter
  events := h.events

/-- **One event and its mirror image**: the same verdict, and corresponding kernels again. -/
theorem step (hf : Function.Injective f) (h : Corresponds f k k') (hr : k.Roomy) (hr' : k'.Roomy) {e e' : Event}
    (hm : Mirrors f e e')
    (hi : e.Inserts) (hi' : e'.Inserts) :
    k'.verdict e' = k.verdict e ∧ Corresponds f (k.step e) (k'.step e') := by
  cases hm with
  | @frame now host host' data data' a hs hs' hp hcpu hres =>
    obtain ⟨hmu, hru⟩ := hi
    obtain ⟨hmu', hru'⟩ := hi'
    cases ho : k.overloaded now with
    | true =>
      -- both are dropped before the source is looked at
      have ho' : k'.overloaded now = true := (h.overloaded now).trans ho
      rw [Kernel.verdict, Kernel.verdict, Kernel.step, Kernel.step, fluxguardFilter_eq, fluxguardFilter_eq,
        if_neg (length_of_source hs), if_neg (length_of_source hs'), if_pos ho, if_pos ho']
      exact ⟨rfl, h.charged now hcpu⟩
    | false =>
      have ho' : k'.overloaded now = false := (h.overloaded now).trans ho
      have hst : (k'.v6.view (f a)).stage now (k'.filters (nexthdr data')) =
          (k.v4.view a).stage now (k.filters (protocol data)) := by
        rw [← (h.renamed a).view, hp, h.filters]
      rw [Kernel.verdict, Kernel.verdict, Kernel.step, Kernel.step, step_packet4 k now host hs ho,
        step_packet6 k' now host' hs' ho', hst]
      exact ⟨rfl, h.packet hf hr hr' now hcpu (hmu.trans hmu'.symm) (hru.trans hru'.symm) hres a _⟩
  | op op => exact ⟨rfl, h.op hf hr hr' op⟩
  | protoSet p action =>
    refine ⟨rfl, h.renamed, h.other, ?_, h.globalRate, h.globalCounter, h.events⟩
    simp only [Kernel.step, h.protoFilter]
  | protoDel p =>
    refine ⟨rfl, h.renamed, h.other, ?_, h.globalRate, h.globalCounter, h.events⟩
    simp only [Kernel.step, h.protoFilter]

end Corresponds

/-! ## Runs -/

section Runs

variable {f : Ip4 → Ip6} {k₀ k₀' : Kernel} {es es' : List Event}

/-- After every step of the two runs the kernels correspond. -/
theorem corresponds_at (hf : Function.Injective f) (hm : List.Forall₂ (Mirrors f) es es') (h : Corresponds f k₀ k₀')
    (hu : Uncrowded k₀ es) (hu' : Uncrowded k₀' es') {n : ℕ} (hn : n ≤ es.length) :
    Corresponds f (kAt k₀ es n) (kAt k₀' es' n) := by
  have hlen := hm.length_eq
  -- by induction on the steps; `Corresponds` is the invariant
  induction n with
  | zero =>
    rw [kAt_zero, kAt_zero]
    exact h
  | succ n ih =>
    have hn' : n < es'.length := by omega
    rw [kAt_succ _ _ hn, kAt_succ _ _ hn']
    exact ((ih (by omega)).step hf (hu.roomy n (by omega)) (hu'.roomy n (by omega)) (hm.get hn hn')
      (hu.inserts_at hn) (hu'.inserts_at hn')).2

/-- **The IPv6 pipeline mirrors the IPv4 pipeline.** A run and its mirror image, from corresponding
kernels and with room in every map: the same verdict for every packet, and corresponding kernels
at the end, with corresponding records in the ring buffer. -/
theorem ipv6_mirrors_ipv4 (hf : Function.Injective f) (hm : List.Forall₂ (Mirrors f) es es')
    (h : Corresponds f k₀ k₀') (hu : Uncrowded k₀ es) (hu' : Uncrowded k₀' es') :
    (∀ n, verdictAt k₀' es' n = verdictAt k₀ es n) ∧ Corresponds f (run k₀ es) (run k₀' es') := by
  have hlen := hm.length_eq
  constructor
  · intro n
    unfold verdictAt
    by_cases hn : n < es.length
    · have hn' : n < es'.length := by omega
      rw [List.getElem?_eq_getElem hn, List.getElem?_eq_getElem hn', Option.bind_some, Option.bind_some]
      exact ((corresponds_at hf hm h hu hu' hn.le).step hf (hu.roomy n hn.le) (hu'.roomy n hn'.le)
        (hm.get hn hn') (hu.inserts_at hn) (hu'.inserts_at hn')).1
    · rw [List.getElem?_eq_none (by omega), List.getElem?_eq_none (by omega), Option.bind_none, Option.bind_none]
  · have hend := corresponds_at hf hm h hu hu' le_rfl
    rw [kAt_length, hlen, kAt_length] at hend
    exact hend

end Runs

/-! ## A run and its mirror image -/

/-- The IPv4-mapped address `::ffff:a.b.c.d`. -/
def mapped (a : Ip4) : Ip6 :=
  #v[0, 0, 0, 0, 0, 0, 0, 0, 0, 0, 255, 255, a.toUInt8, (a >>> 8).toUInt8, (a >>> 16).toUInt8, (a >>> 24).toUInt8]

theorem mapped_injective : Function.Injective mapped := by
  intro a b h
  have h0 : (mapped a)[12] = (mapped b)[12] := by rw [h]
  have h1 : (mapped a)[13] = (mapped b)[13] := by rw [h]
  have h2 : (mapped a)[14] = (mapped b)[14] := by rw [h]
  have h3 : (mapped a)[15] = (mapped b)[15] := by rw [h]
  simp only [mapped, Vector.getElem_mk, List.getElem_toArray, List.getElem_cons_succ, List.getElem_cons_zero,
    ← UInt8.toNat_inj, UInt32.toNat_toUInt8, UInt32.toNat_shiftRight] at h0 h1 h2 h3
  rw [← UInt32.toNat_inj]
  simp only [UInt32.reduceToNat, Nat.reduceMod, Nat.shiftRight_eq_div_pow, Nat.reducePow] at h0 h1 h2 h3
  have ha := a.toNat_lt
  have hb := b.toNat_lt
  omega

/-- The shortest IPv6 frame from `a` with next header `p`. -/
def ip6Frame (a : Ip6) (p : UInt8) : List UInt8 :=
  List.replicate 12 0 ++ [0x86, 0xDD] ++ List.replicate 6 0 ++ [p, 0] ++ a.toList ++ List.replicate 16 0

/-- The victim's two packets, and it is blacklisted. -/
def victimRun : List Event := twoFrames ++ [.v4 (.blacklist 0x0501000A 1)]

/-- The same from `::ffff:10.0.1.5`. -/
def victimRun6 : List Event :=
  [.frame 200000000 quiet (ip6Frame (mapped 0x0501000A) 6), .frame 201500000 quiet (ip6Frame (mapped 0x0501000A) 6),
    .v6 (.blacklist (mapped 0x0501000A) 1)]

theorem corresponds_init (f : Ip4 → Ip6) (cpus : ℕ) : Corresponds f (Kernel.init cpus) (Kernel.init cpus) where
  renamed := fun _ => ⟨rfl, rfl, rfl, rfl⟩
  other := fun _ _ => ⟨rfl, rfl, rfl, rfl⟩
  protoFilter := rfl
  globalRate := rfl
  globalCounter := rfl
  events := List.Forall₂.nil

theorem uncrowded_victimRun : Uncrowded (Kernel.init 1) victimRun where
  roomy := by
    intro n hn
    have hn : n ≤ 3 := hn
    interval_cases n <;> decide
  inserts := by simp [victimRun, twoFrames, Event.Inserts, quiet]
  keeps := by simp [victimRun, twoFrames, Event.Evicts]

theorem uncrowded_victimRun6 : Uncrowded (Kernel.init 1) victimRun6 where
  roomy := by
    intro n hn
    have hn : n ≤ 3 := hn
    interval_cases n <;> decide
  inserts := by simp [victimRun6, Event.Inserts, quiet]
  keeps := by simp [victimRun6, Event.Evicts]

theorem ipv6_mirrors_ipv4_victim :
    (∀ n, verdictAt (Kernel.init 1) victimRun6 n = verdictAt (Kernel.init 1) victimRun n) ∧
      Corresponds mapped (run (Kernel.init 1) victimRun) (run (Kernel.init 1) victimRun6) := by
  refine ipv6_mirrors_ipv4 mapped_injective ?_ (corresponds_init mapped 1) uncrowded_victimRun uncrowded_victimRun6
  have hframe : ∀ now, Mirrors mapped (.frame now quiet (ip4Frame 10 0 1 5 6))
      (.frame now quiet (ip6Frame (mapped 0x0501000A) 6)) :=
    fun now => .frame sourceOf_victim (by decide) (by decide) rfl rfl
  exact .cons (hframe _) (.cons (hframe _) (.cons (.op (.blacklist _ 1)) .nil))

end FluxGuard
