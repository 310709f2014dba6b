import FluxGuard.Proof.Global

/-!
# Packet accounting

What the meter maps and the per-CPU counter say after any run of the filter.

* `meter_run`: the meter entry of a source that is not evicted goes up by the number of its
  packets that the filter counted, modulo `2^32`.
* `counters_run`: every frame with an Ethernet header goes into one slot of the per-CPU counter.
* `packet_accounting`: both, for runs from the initial maps.
-/

namespace FluxGuard

/-- The events of a run that satisfy a predicate in the state they find. -/
def countAlong (p : Kernel → Event → Bool) : Kernel → List Event → ℕ
  | _, [] => 0
  | k, e :: es => (if p k e then 1 else 0) + countAlong p (k.step e) es

/-- A run and one event more. -/
theorem countAlong_concat (p : Kernel → Event → Bool) (k : Kernel) (es : List Event) (e : Event) :
    countAlong p k (es ++ [e]) = countAlong p k es + if p (run k es) e then 1 else 0 := by
  induction es generalizing k with
  | nil =>
    rw [List.nil_append, countAlong, countAlong, countAlong, Nat.add_zero, Nat.zero_add]
    rfl
  | cons e' es ih =>
    rw [List.cons_append, countAlong, countAlong, ih, run_cons, Nat.add_assoc]

/-- What no event counts is counted zero times. -/
theorem countAlong_eq_zero {p : Kernel → Event → Bool} {es : List Event} (h : ∀ e ∈ es, ∀ k, p k e = false)
    (k : Kernel) :
    countAlong p k es = 0 := by
  induction es generalizing k with
  | nil => rfl
  | cons e es ih =>
    rw [countAlong, h e List.mem_cons_self, ih fun e' he' => h e' (List.mem_cons_of_mem _ he')]
    rfl

/-- What is counted alike at every event is counted alike. -/
theorem countAlong_congr {p q : Kernel → Event → Bool} {es : List Event} (h : ∀ e ∈ es, ∀ k, p k e = q k e)
    (k : Kernel) :
    countAlong p k es = countAlong q k es := by
  induction es generalizing k with
  | nil => rfl
  | cons e es ih =>
    rw [List.forall_mem_cons] at h
    rw [countAlong, countAlong, h.1 k, ih h.2]

/-! ## The meter -/

/-- The eviction of a source's entry from its meter map. -/
def evictMeter : Source → Event
  | .v4 a => .v4 (.evictMeter a)
  | .v6 a => .v6 (.evictMeter a)

/-- A frame of the source that gets to the meter: the global bucket passes it, the source is not
allowlisted and the protocol is not dropped. -/
def Kernel.reachesMeter (k : Kernel) (s : Source) : Event → Bool
  | .frame now _ data =>
    decide (sourceOf data = some s) && !k.overloaded now && !(k.view s).allowed && !k.filters (protoOf data s)
  | _ => false

/-- Inserts of new keys into the meter maps succeed while the event is handled. -/
def Event.insertsMeter : Event → Bool
  | .frame _ host _ => host.meterUpdate
  | _ => true

/-- A frame of the source that the filter counts: its entry is there or can be inserted. -/
def Kernel.meters (k : Kernel) (s : Source) (e : Event) : Bool :=
  k.reachesMeter s e && ((k.view s).meter.isSome || e.insertsMeter)

/-- The packets of a source that the filter counts in a run. -/
def metered (s : Source) (k : Kernel) (es : List Event) : ℕ := countAlong (fun k e => k.meters s e) k es

theorem isSome_counted (host : Host) (m : Option UInt32) :
    (counted host m).isSome = (m.isSome || host.meterUpdate) := by
  cases m with
  | none => cases h : host.meterUpdate <;> simp [counted, h]
  | some cnt => rfl

/-- A packet adds one to its meter, if there is room for one. -/
theorem getD_counted (host : Host) (m : Option UInt32) :
    (counted host m).getD 0 = m.getD 0 + if m.isSome || host.meterUpdate then 1 else 0 := by
  cases m with
  | none => cases h : host.meterUpdate <;> simp [counted, h]
  | some cnt => rfl

/-- The stages at and after the meter. -/
theorem View.meter_packet (v : View) (now : UInt64) (host : Host) (filtered room : Bool) :
    (v.packet now host room (v.stage now filtered)).meter =
      if v.allowed || filtered then v.meter else counted host v.meter := by
  unfold View.stage
  cases v.allowed with
  | true => rfl
  | false =>
    cases filtered with
    | true => rfl
    | false =>
      cases v.listed with
      | true => rfl
      | false =>
        unfold bucketStage
        cases v.bucket with
        | none => rfl
        | some tb =>
          cases hd : (tokenBucketCheck tb now).2
          · simp only [Bool.false_eq_true, if_false, hd]; rfl
          · simp only [Bool.false_eq_true, if_false, hd, if_true]; rfl

/-- No act but a packet and an eviction touches the meter. -/
theorem View.meter_step {v : View} {a : Act} (hp : ∀ now host filtered room, a ≠ .packet now host filtered room)
    (he : a ≠ .evictMeter) : (v.step a).meter = v.meter := by
  cases a with
  | packet now host filtered room => exact absurd rfl (hp now host filtered room)
  | evictMeter => exact absurd rfl he
  | allow => rfl
  | disallow => rfl
  | blacklist => rfl
  | unblacklist => rfl
  | evictRate => rfl
  | idle => rfl

/-- Only the eviction of its meter evicts it. -/
theorem Kernel.act_evictMeter {k : Kernel} {s : Source} {e : Event} (h : k.act s e = .evictMeter) :
    e = evictMeter s := by
  cases e with
  | frame now host data =>
    simp only [Kernel.act] at h
    split at h <;> cases h
  | v4 op =>
    cases s with
    | v4 a =>
      cases op <;> simp only [Kernel.act, IpMaps.act] at h <;> split at h <;> cases h
      subst_vars
      rfl
    | v6 a => cases h
  | v6 op =>
    cases s with
    | v4 a => cases h
    | v6 a =>
      cases op <;> simp only [Kernel.act, IpMaps.act] at h <;> split at h <;> cases h
      subst_vars
      rfl
  | protoSet p action => cases h
  | protoDel p => cases h

/-- Only a packet of the source reaches its meter. -/
theorem Kernel.reachesMeter_eq_false {k : Kernel} {s : Source} {e : Event}
    (h : ∀ now host filtered room, k.act s e ≠ .packet now host filtered room) : k.reachesMeter s e = false := by
  cases e with
  | frame now host data =>
    by_cases hs : sourceOf data = some s
    · cases ho : k.overloaded now with
      | true => simp [Kernel.reachesMeter, ho]
      | false => exact absurd (if_pos ⟨hs, ho⟩) (h now host (k.filters (protoOf data s)) (k.room s))
    · simp [Kernel.reachesMeter, hs]
  | v4 op => rfl
  | v6 op => rfl
  | protoSet p action => rfl
  | protoDel p => rfl

/-- **One event and the meter.** A frame that reaches the meter is counted, nothing else is. -/
theorem Kernel.meter_step (k : Kernel) {s : Source} {e : Event} (he : e ≠ evictMeter s) :
    ((k.step e).view s).meter.getD 0 = (k.view s).meter.getD 0 + (if k.meters s e then 1 else 0) ∧
      ((k.step e).view s).meter.isSome = ((k.view s).meter.isSome || k.meters s e) := by
  rw [Kernel.view_step]
  by_cases hp : ∃ now host filtered room, k.act s e = .packet now host filtered room
  · obtain ⟨now, host, filtered, room, ha⟩ := hp
    obtain ⟨data, rfl, hs, hno, rfl, rfl⟩ := Kernel.act_packet ha
    have hreach : k.reachesMeter s (.frame now host data) = !((k.view s).allowed || k.filters (protoOf data s)) := by
      simp [Kernel.reachesMeter, hs, hno]
    unfold Kernel.meters
    rw [ha, View.step, View.meter_packet, hreach]
    cases (k.view s).allowed || k.filters (protoOf data s) with
    | true => simp
    | false =>
      rw [if_neg Bool.false_ne_true, getD_counted, isSome_counted]
      exact ⟨rfl, by simp [Event.insertsMeter]⟩
  · push Not at hp
    have hnot : k.meters s e = false := by
      unfold Kernel.meters
      rw [Kernel.reachesMeter_eq_false hp, Bool.false_and]
    rw [View.meter_step hp fun ha => he (Kernel.act_evictMeter ha), hnot]
    simp

/-- **The meter along a run** in which the source's entry is not evicted, from any state. -/
theorem meter_run (k : Kernel) {s : Source} {es : List Event} (he : ∀ e ∈ es, e ≠ evictMeter s) :
    ((run k es).view s).meter.getD 0 = (k.view s).meter.getD 0 + UInt32.ofNat (metered s k es) ∧
      ((run k es).view s).meter.isSome = ((k.view s).meter.isSome || decide (0 < metered s k es)) := by
  induction es generalizing k with
  | nil => simp [run, metered, countAlong]
  | cons e es ih =>
    rw [List.forall_mem_cons] at he
    obtain ⟨hvalue, hsome⟩ := Kernel.meter_step k he.1
    obtain ⟨hvalue', hsome'⟩ := ih (k.step e) he.2
    have hcount : metered s k (e :: es) = (if k.meters s e then 1 else 0) + metered s (k.step e) es := rfl
    rw [run_cons, hvalue', hsome', hvalue, hsome, hcount]
    cases k.meters s e with
    | true => simp [UInt32.ofNat_add, UInt32.add_assoc]
    | false => simp

/-! ## The per-CPU counter -/

/-- A frame with an Ethernet header runs on a CPU that the counter has a slot for. -/
def Event.OnCpu (cpus : ℕ) : Event → Prop
  | .frame _ host _ => host.cpu < cpus
  | _ => True

/-- The per-CPU counters, summed as a reader sums them. -/
def Kernel.counters (k : Kernel) : ℕ := (k.globalCounterMap.map UInt64.toNat).sum

/-- One counter more by one, modulo the width of the word. -/
theorem sum_modify {l : List UInt64} {i : ℕ} (hi : i < l.length) :
    ((l.modify i (· + 1)).map UInt64.toNat).sum ≤ (l.map UInt64.toNat).sum + 1 ∧
      ((l.modify i (· + 1)).map UInt64.toNat).sum ≡ (l.map UInt64.toNat).sum + 1 [MOD 2 ^ 64] := by
  induction l generalizing i with
  | nil => cases hi
  | cons x l ih =>
    cases i with
    | zero =>
      have hx : (x + 1).toNat = (x.toNat + 1) % 2 ^ 64 := UInt64.toNat_add x 1
      simp only [List.modify_zero_cons, List.map_cons, List.sum_cons, hx]
      constructor
      · have := Nat.mod_le (x.toNat + 1) (2 ^ 64)
        omega
      · calc (x.toNat + 1) % 2 ^ 64 + (l.map UInt64.toNat).sum
            ≡ x.toNat + 1 + (l.map UInt64.toNat).sum [MOD 2 ^ 64] := (Nat.mod_modEq _ _).add_right _
          _ = x.toNat + (l.map UInt64.toNat).sum + 1 := by omega
    | succ i =>
      obtain ⟨hle, hmod⟩ := ih (Nat.lt_of_succ_lt_succ hi)
      simp only [List.modify_succ_cons, List.map_cons, List.sum_cons]
      constructor
      · omega
      · exact hmod.add_left x.toNat

/-- After the count at the start a packet is not counted again. -/
theorem dispatch_globalCounterMap (k : Kernel) (now : UInt64) (host : Host) (data : List UInt8) :
    (dispatch k now host data).1.globalCounterMap = k.globalCounterMap := by
  unfold dispatch
  split
  · split
    · rfl
    · rw [ipv4Path_eq k now host _ _ rfl]
  · split
    · split
      · rfl
      · rw [ipv6Path_eq k now host _ _ rfl]
    · rfl

/-- **One event and the counter**: a frame with an Ethernet header goes into the slot of its CPU, also
when the global bucket drops it. -/
theorem Kernel.globalCounterMap_step (k : Kernel) (e : Event) :
    (k.step e).globalCounterMap = k.globalCounterMap ∧ e.charge = none ∨
      ∃ now host data, e = .frame now host data ∧ e.charge = some now ∧
        (k.step e).globalCounterMap = k.globalCounterMap.modify host.cpu (· + 1) := by
  cases e with
  | frame now host data =>
    by_cases hl : data.length < 14
    · exact Or.inl ⟨by simp [Kernel.step, fluxguardFilter_eq, hl], by simp [Event.charge, hl]⟩
    · refine Or.inr ⟨now, host, data, rfl, by simp [Event.charge, hl], ?_⟩
      simp only [Kernel.step, fluxguardFilter_eq, if_neg hl]
      split
      · rfl
      · rw [dispatch_globalCounterMap]
        rfl
  | v4 op => exact Or.inl ⟨rfl, rfl⟩
  | v6 op => exact Or.inl ⟨rfl, rfl⟩
  | protoSet p action => exact Or.inl ⟨rfl, rfl⟩
  | protoDel p => exact Or.inl ⟨rfl, rfl⟩

/-- There are as many counters as processors. -/
theorem Kernel.length_globalCounterMap_step (k : Kernel) (e : Event) :
    (k.step e).globalCounterMap.length = k.globalCounterMap.length := by
  rcases Kernel.globalCounterMap_step k e with ⟨h, -⟩ | ⟨now, host, data, -, -, h⟩
  · rw [h]
  · rw [h, List.length_modify]

theorem length_globalCounterMap_run (k : Kernel) (es : List Event) :
    (run k es).globalCounterMap.length = k.globalCounterMap.length := by
  induction es generalizing k with
  | nil => rfl
  | cons e es ih => rw [run_cons, ih, Kernel.length_globalCounterMap_step]

/-- The frames with an Ethernet header. -/
def framed (es : List Event) : ℕ := es.countP fun e => e.charge.isSome

/-- **The counters along a run**: the sum goes up by one a frame, until a counter wraps. -/
theorem counters_run (k : Kernel) {es : List Event} (hcpu : ∀ e ∈ es, e.OnCpu k.globalCounterMap.length) :
    (run k es).counters ≤ k.counters + framed es ∧ (run k es).counters ≡ k.counters + framed es [MOD 2 ^ 64] := by
  induction es generalizing k with
  | nil => exact ⟨le_rfl, Nat.ModEq.refl _⟩
  | cons e es ih =>
    rw [List.forall_mem_cons] at hcpu
    obtain ⟨hle, hmod⟩ := ih (k.step e) (by rw [Kernel.length_globalCounterMap_step]; exact hcpu.2)
    rw [run_cons]
    rcases Kernel.globalCounterMap_step k e with ⟨hsame, hnone⟩ | ⟨now, host, data, rfl, hsome, hmodify⟩
    · have hk : (k.step e).counters = k.counters := by
        unfold Kernel.counters
        rw [hsame]
      have hcount : framed (e :: es) = framed es := List.countP_cons_of_neg (by simp [hnone])
      rw [hk] at hle hmod
      rw [hcount]
      exact ⟨hle, hmod⟩
    · obtain ⟨hle', hmod'⟩ := sum_modify (show host.cpu < k.globalCounterMap.length from hcpu.1)
      rw [← hmodify] at hle' hmod'
      have hcount : framed (.frame now host data :: es) = framed es + 1 := List.countP_cons_of_pos (by simp [hsome])
      have hk : (k.step (.frame now host data)).counters ≤ k.counters + 1 := hle'
      have hk' : (k.step (.frame now host data)).counters ≡ k.counters + 1 [MOD 2 ^ 64] := hmod'
      rw [hcount]
      constructor
      · omega
      · calc (run (k.step (.frame now host data)) es).counters
            ≡ (k.step (.frame now host data)).counters + framed es [MOD 2 ^ 64] := hmod
          _ ≡ k.counters + 1 + framed es [MOD 2 ^ 64] := hk'.add_right _
          _ = k.counters + (framed es + 1) := by omega

theorem counters_init (cpus : ℕ) : (Kernel.init cpus).counters = 0 := by
  simp [Kernel.counters, Kernel.init]

/-! ## Both -/

/-- The event evicts no meter entry, and inserts into the meter maps succeed. -/
structure Event.KeepsMeters (e : Event) : Prop where
  stays : ∀ s, e ≠ evictMeter s
  inserts : e.insertsMeter = true

/-- **Packet accounting.** After any run in which no meter entry is evicted, every inserted one fits and
every frame runs on one of the CPUs: the meter entry of a source is the number of its packets that got past
the global bucket, the allowlist and the protocol filter, modulo `2^32`, and there is none before the first.
The per-CPU counters sum up to the number of frames with an Ethernet header modulo `2^64`, and to the number
itself as long as it is below `2^64`. -/
theorem packet_accounting (cpus : ℕ) (es : List Event) (hkeep : ∀ e ∈ es, e.KeepsMeters)
    (hcpu : ∀ e ∈ es, e.OnCpu cpus) :
    (∀ s, ((run (Kernel.init cpus) es).view s).meter =
      if countAlong (fun k e => k.reachesMeter s e) (Kernel.init cpus) es = 0 then none
      else some (UInt32.ofNat (countAlong (fun k e => k.reachesMeter s e) (Kernel.init cpus) es))) ∧
    (run (Kernel.init cpus) es).counters ≡ framed es [MOD 2 ^ 64] ∧
    (framed es < 2 ^ 64 → (run (Kernel.init cpus) es).counters = framed es) := by
  have hlen : (Kernel.init cpus).globalCounterMap.length = cpus := List.length_replicate
  obtain ⟨hle, hmod⟩ := counters_run (Kernel.init cpus) (by rw [hlen]; exact hcpu)
  rw [counters_init, Nat.zero_add] at hle hmod
  refine ⟨?_, hmod, ?_⟩
  · intro s
    have hcount : countAlong (fun k e => k.reachesMeter s e) (Kernel.init cpus) es =
        metered s (Kernel.init cpus) es := by
      apply countAlong_congr
      intro e he k
      unfold Kernel.meters
      rw [(hkeep e he).inserts, Bool.or_true, Bool.and_true]
    have hnone : ((Kernel.init cpus).view s).meter = none := by cases s <;> rfl
    obtain ⟨hvalue, hsome⟩ := meter_run (Kernel.init cpus) (s := s) fun e he => (hkeep e he).stays s
    rw [hnone] at hvalue hsome
    rw [hcount]
    cases hm : ((run (Kernel.init cpus) es).view s).meter with
    | none =>
      rw [hm] at hsome
      rw [if_pos (by simpa using hsome)]
    | some cnt =>
      rw [hm] at hvalue hsome
      rw [if_neg (by simpa [Nat.pos_iff_ne_zero] using hsome)]
      congr 1
      simpa using hvalue
  · intro hlt
    exact hmod.eq_of_lt_of_lt (by omega) hlt

theorem frame_ne_evictMeter {now : UInt64} {host : Host} {data : List UInt8} (s : Source) :
    Event.frame now host data ≠ evictMeter s := by
  intro h
  cases s with
  | v4 a => cases h
  | v6 a => cases h

theorem keepsMeters_frame {now : UInt64} {host : Host} {data : List UInt8} (h : host.meterUpdate = true) :
    (Event.frame now host data).KeepsMeters where
  stays := frame_ne_evictMeter
  inserts := h

theorem packet_accounting_twoFrames :
    ((run (Kernel.init 1) twoFrames).view victim).meter = some 2 ∧ (run (Kernel.init 1) twoFrames).counters = 2 := by
  have hkeep : ∀ e ∈ twoFrames, e.KeepsMeters := by
    intro e he
    simp only [twoFrames, List.mem_cons, List.not_mem_nil, or_false] at he
    rcases he with rfl | rfl
    · exact keepsMeters_frame rfl
    · exact keepsMeters_frame rfl
  have hcpu : ∀ e ∈ twoFrames, e.OnCpu 1 := by
    intro e he
    simp only [twoFrames, List.mem_cons, List.not_mem_nil, or_false] at he
    rcases he with rfl | rfl
    · exact Nat.one_pos
    · exact Nat.one_pos
  obtain ⟨hmeter, -, hexact⟩ := packet_accounting 1 twoFrames hkeep hcpu
  have hcount : countAlong (fun k e => k.reachesMeter victim e) (Kernel.init 1) twoFrames = 2 := by decide +kernel
  have hframed : framed twoFrames = 2 := by decide
  constructor
  · rw [hmeter victim, hcount]
    rfl
  · rw [hexact (by omega), hframed]

/-- One frame too many for a `u64`. -/
def countless : List Event := List.replicate (2 ^ 64) (.frame 0 quiet (ip4Frame 10 0 1 5 6))

theorem framed_countless : framed countless = 2 ^ 64 := by
  unfold framed countless
  rw [List.countP_replicate, if_pos (by decide)]

/-- A single CPU's counter wraps. -/
theorem counter_wraps :
    ¬ ∀ (cpus : ℕ) (es : List Event), (∀ e ∈ es, e.KeepsMeters) → (∀ e ∈ es, e.OnCpu cpus) →
      (run (Kernel.init cpus) es).counters = framed es := by
  intro h
  have hwrap := h 1 countless
    (by
      intro e he
      rw [List.eq_of_mem_replicate he]
      exact keepsMeters_frame rfl)
    (by
      intro e he
      rw [List.eq_of_mem_replicate he]
      exact Nat.one_pos)
  have hlen : (run (Kernel.init 1) countless).globalCounterMap.length = 1 := length_globalCounterMap_run _ _
  obtain ⟨x, hx⟩ := List.length_eq_one_iff.1 hlen
  have hlt := x.toNat_lt
  rw [framed_countless, Kernel.counters, hx, List.map_singleton, List.sum_singleton] at hwrap
  omega

end FluxGuard
