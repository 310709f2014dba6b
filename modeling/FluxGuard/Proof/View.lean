import FluxGuard.Model.View

/-!
# The maps follow the per-source machine

* `Kernel.view_step`: every event changes the view of every source as `View.step`
  says. In particular no packet of another source or family touches it.
* `Kernel.verdict_packet`: the verdict on a packet of a source is its stage's, or a
  drop by the global bucket.
* `Kernel.globalRateMap_step`: every frame with an Ethernet header charges the
  global bucket, nothing else does.
-/

namespace FluxGuard

/-! ## What a stage says about the view -/

namespace View

variable {v : View} {now : UInt64} {filtered : Bool}

/-- Only an open source gets as far as its bucket. -/
theorem of_reachesBucket (h : (v.stage now filtered).reachesBucket = true) :
    v.allowed = false ∧ filtered = false ∧ v.listed = false := by
  unfold stage at h
  cases ha : v.allowed
  · cases hf : filtered
    · cases hl : v.listed
      · exact ⟨rfl, rfl, rfl⟩
      · simp [ha, hf, hl, Stage.reachesBucket] at h
    · simp [ha, hf, Stage.reachesBucket] at h
  · simp [ha, Stage.reachesBucket] at h

/-- An open source's stage is its bucket's. -/
theorem stage_of_open (ha : v.allowed = false) (hf : filtered = false) (hl : v.listed = false) :
    v.stage now filtered = bucketStage now v.bucket := by
  unfold stage; simp [ha, hf, hl]

theorem stage_eq_bucketStage {st : Stage} (h : v.stage now filtered = st) (hr : st.reachesBucket = true) :
    bucketStage now v.bucket = st := by
  subst h
  obtain ⟨ha, hf, hl⟩ := of_reachesBucket hr
  exact (stage_of_open ha hf hl).symm

/-- A fresh source has no bucket. -/
theorem bucket_of_fresh (h : v.stage now filtered = .fresh) : v.bucket = none := by
  have hb := stage_eq_bucketStage h rfl
  unfold bucketStage at hb
  split at hb
  · assumption
  · split at hb <;> cases hb

/-- An admitted one has a bucket that takes the packet. -/
theorem bucket_of_admitted (h : v.stage now filtered = .admitted) :
    ∃ tb, v.bucket = some tb ∧ (tokenBucketCheck tb now).2 = false := by
  have hb := stage_eq_bucketStage h rfl
  unfold bucketStage at hb
  split at hb
  · cases hb
  · split at hb
    · cases hb
    · exact ⟨_, ‹_›, Bool.eq_false_iff.2 ‹_›⟩

/-- An exhausted one has a bucket that does not. -/
theorem bucket_of_exhausted (h : v.stage now filtered = .exhausted) :
    ∃ tb, v.bucket = some tb ∧ (tokenBucketCheck tb now).2 = true := by
  have hb := stage_eq_bucketStage h rfl
  unfold bucketStage at hb
  split at hb
  · cases hb
  · split at hb
    · exact ⟨_, ‹_›, ‹_›⟩
    · cases hb

theorem allowed_of_stage (h : v.stage now filtered = .allowed) : v.allowed = true := by
  by_contra ha
  rw [Bool.not_eq_true] at ha
  unfold stage bucketStage at h
  rw [ha] at h
  simp only [Bool.false_eq_true, if_false] at h
  split at h
  · cases h
  · split at h
    · cases h
    · split at h
      · cases h
      · split at h <;> cases h

/-- Where the bucket of a source comes from after one of its packets. -/
theorem bucket_packet_cases (v : View) {now : UInt64} {host : Host} {filtered room : Bool} {tb' : TokenBucket}
    (h : (v.packet now host room (v.stage now filtered)).bucket = some tb') :
    v.bucket = some tb' ∨ tb' = freshBucket now ∨
      ∃ tb, v.bucket = some tb ∧ tb' = (tokenBucketCheck tb now).1 := by
  cases hst : v.stage now filtered with
  | allowed => rw [hst] at h; exact Or.inl h
  | filtered => rw [hst] at h; exact Or.inl h
  | blacklisted => rw [hst] at h; exact Or.inl h
  | fresh =>
    rw [hst] at h
    simp only [packet] at h
    split at h
    · exact Or.inr (Or.inl (Option.some.inj h).symm)
    · cases h
  | admitted =>
    obtain ⟨tb, hb, -⟩ := bucket_of_admitted hst
    rw [hst] at h
    simp only [packet, hb, Option.map_some, Option.some.injEq] at h
    exact Or.inr (Or.inr ⟨tb, hb, h.symm⟩)
  | exhausted =>
    obtain ⟨tb, hb, -⟩ := bucket_of_exhausted hst
    rw [hst] at h
    simp only [packet, hb, Option.map_some, Option.some.injEq] at h
    exact Or.inr (Or.inr ⟨tb, hb, h.symm⟩)

/-- No act but a packet gives a source a bucket. -/
theorem bucket_step_cases (v : View) {a : Act} {tb' : TokenBucket} (h : (v.step a).bucket = some tb') :
    v.bucket = some tb' ∨ ∃ now host filtered room, a = .packet now host filtered room ∧
      (tb' = freshBucket now ∨ ∃ tb, v.bucket = some tb ∧ tb' = (tokenBucketCheck tb now).1) := by
  cases a with
  | packet now host filtered room =>
    rcases bucket_packet_cases v h with h | h
    · exact Or.inl h
    · exact Or.inr ⟨now, host, filtered, room, rfl, h⟩
  | allow => exact Or.inl h
  | disallow => exact Or.inl h
  | blacklist => exact Or.inl h
  | unblacklist => exact Or.inl h
  | evictMeter => exact Or.inl h
  | evictRate => cases h
  | idle => exact Or.inl h

end View

section Family

variable {α : Type} [DecidableEq α] {n m : ℕ}

/-- The filter lets through what is on the allowlist map. -/
theorem IpMaps.allowed_iff (maps : IpMaps α n m) (a : α) :
    (maps.view a).allowed = true ↔ a ∈ maps.allowlistMap.entries := Dict.mem_iff_isSome.symm

/-- It drops what is on the blacklist map. -/
theorem IpMaps.listed_iff (maps : IpMaps α n m) (a : α) :
    (maps.view a).listed = true ↔ a ∈ maps.blacklistMap.entries := Dict.mem_iff_isSome.symm

/-- The maps of a family after a packet of `src` decided by a stage. -/
def IpMaps.packet (maps : IpMaps α n m) (now : UInt64) (host : Host) (src : α) : Stage → IpMaps α n m
  | .allowed | .filtered => maps
  | .blacklisted => { maps with meterMap := meter maps.meterMap host src }
  | .fresh => { maps with
      meterMap := meter maps.meterMap host src
      rateMap := if host.rateUpdate then maps.rateMap.set src (freshBucket now) else maps.rateMap }
  | .admitted => { maps with
      meterMap := meter maps.meterMap host src
      rateMap := match maps.rateMap.get? src with
        | some tb => maps.rateMap.set src (tokenBucketCheck tb now).1
        | none => maps.rateMap }
  | .exhausted => { maps with
      meterMap := meter maps.meterMap host src
      rateMap := match maps.rateMap.get? src with
        | some tb => maps.rateMap.set src (tokenBucketCheck tb now).1
        | none => maps.rateMap
      blacklistMap := maps.blacklistMap.update src 1 }

theorem get?_meter_self (d : Dict α UInt32) (host : Host) (src : α) :
    (meter d host src).get? src = counted host (d.get? src) := by
  unfold meter
  cases h : d.get? src with
  | some cnt => simp [counted]
  | none => dsimp only [counted]; split <;> simp [h]

theorem get?_meter_ne (d : Dict α UInt32) (host : Host) {src a : α} (h : a ≠ src) :
    (meter d host src).get? a = d.get? a := by
  unfold meter
  split
  · exact Dict.get?_set_ne _ _ h
  · split
    · exact Dict.get?_set_ne _ _ h
    · rfl

theorem listed_update (b : BpfHash α UInt32 n) (src a : α) (v : UInt32) :
    ((b.update src v).lookupElem a).isSome =
      ((b.lookupElem a).isSome || decide (a = src ∧ b.entries.size < n)) := by
  rw [BpfHash.isSome_lookupElem, BpfHash.isSome_lookupElem, Bool.eq_iff_iff, Bool.or_eq_true,
    decide_eq_true_iff, decide_eq_true_iff, decide_eq_true_iff, BpfHash.mem_update]

theorem listed_delete (b : BpfHash α UInt32 n) (src a : α) :
    ((b.delete src).lookupElem a).isSome = (decide (a ≠ src) && (b.lookupElem a).isSome) := by
  rw [BpfHash.isSome_lookupElem, BpfHash.isSome_lookupElem, Bool.eq_iff_iff, Bool.and_eq_true,
    decide_eq_true_iff, decide_eq_true_iff, decide_eq_true_iff, BpfHash.mem_delete]

/-- A packet moves the view of its source as its stage says. -/
theorem IpMaps.view_packet_self (maps : IpMaps α n m) (now : UInt64) (host : Host) (src : α) (filtered : Bool) :
    (maps.packet now host src ((maps.view src).stage now filtered)).view src =
      (maps.view src).packet now host maps.room ((maps.view src).stage now filtered) := by
  cases hst : (maps.view src).stage now filtered with
  | allowed => rfl
  | filtered => rfl
  | blacklisted => simp only [packet, view, View.packet, View.metered, get?_meter_self]
  | fresh =>
    have hnone : maps.rateMap.get? src = none := View.bucket_of_fresh hst
    simp only [packet, view, View.packet, View.metered, get?_meter_self]
    split <;> simp [hnone]
  | admitted =>
    simp only [packet, view, View.packet, View.metered, get?_meter_self]
    cases h : maps.rateMap.get? src <;> simp [h]
  | exhausted =>
    simp only [packet, view, View.packet, View.metered, get?_meter_self, listed_update, room]
    cases h : maps.rateMap.get? src <;> simp [h]

/-- It does not move the view of another. -/
theorem IpMaps.view_packet_ne (maps : IpMaps α n m) (now : UInt64) (host : Host) {src a : α} (h : a ≠ src)
    (st : Stage) : (maps.packet now host src st).view a = maps.view a := by
  have hrate : ∀ tb, (maps.rateMap.set src tb).get? a = maps.rateMap.get? a :=
    fun tb => Dict.get?_set_ne _ tb h
  cases st with
  | allowed => rfl
  | filtered => rfl
  | blacklisted => simp only [packet, view, get?_meter_ne _ _ h]
  | fresh =>
    simp only [packet, view, get?_meter_ne _ _ h]
    split <;> simp [hrate]
  | admitted =>
    simp only [packet, view, get?_meter_ne _ _ h]
    split <;> simp [hrate]
  | exhausted =>
    simp only [packet, view, get?_meter_ne _ _ h, listed_update, h, false_and, decide_false, Bool.or_false]
    split <;> simp [hrate]

/-- A map operation changes a view as its act says. -/
theorem IpMaps.view_apply (maps : IpMaps α n m) (s : α) (op : MapOp α) :
    (maps.apply op).view s = (maps.view s).step (maps.act s op) := by
  -- a map operation on another key is no act on `s`
  cases op with
  | allow a v =>
    simp only [apply, act, view, listed_update]
    by_cases ha : s = a
    · subst ha
      by_cases hm : s ∈ maps.allowlistMap
      · simp [View.step, BpfHash.isSome_lookupElem, hm]
      · by_cases hs : maps.allowlistMap.entries.size < m <;>
          simp [View.step, BpfHash.isSome_lookupElem, hm, hs]
    · simp [ha, Ne.symm ha, View.step]
  | disallow a =>
    simp only [apply, act, view, listed_delete]
    by_cases ha : s = a
    · subst ha; simp [View.step]
    · simp [ha, Ne.symm ha, View.step]
  | blacklist a v =>
    simp only [apply, act, view, listed_update]
    by_cases ha : s = a
    · subst ha
      by_cases hm : s ∈ maps.blacklistMap
      · simp [View.step, BpfHash.isSome_lookupElem, hm]
      · by_cases hs : maps.blacklistMap.entries.size < n <;>
          simp [View.step, BpfHash.isSome_lookupElem, hm, hs]
    · simp [ha, Ne.symm ha, View.step]
  | unblacklist a =>
    simp only [apply, act, view, listed_delete]
    by_cases ha : s = a
    · subst ha; simp [View.step]
    · simp [ha, Ne.symm ha, View.step]
  | evictMeter a =>
    simp only [apply, act, view, Dict.get?_erase]
    by_cases ha : s = a
    · subst ha; simp [View.step]
    · simp [ha, Ne.symm ha, View.step]
  | evictRate a =>
    simp only [apply, act, view, Dict.get?_erase]
    by_cases ha : s = a
    · subst ha; simp [View.step]
    · simp [ha, Ne.symm ha, View.step]

end Family

/-! ## The two paths -/

/-- The event of an exhausted bucket, written over the record the kernel reserved. -/
def emitted (host : Host) (write : AttackEvent → AttackEvent) : Stage → List AttackEvent
  | .exhausted => (host.reserve.map write).toList
  | _ => []

/-- `write_event`, as the IPv4 path calls it. -/
def writeEvent4 (src : Ip4) (now : UInt64) (ev : AttackEvent) : AttackEvent :=
  { ev with af := 4, reason := 1, pad := 0, srcV4 := src, timestamp := now }

/-- `write_event`, as the IPv6 path calls it. -/
def writeEvent6 (src : Ip6) (now : UInt64) (ev : AttackEvent) : AttackEvent :=
  { ev with af := 6, reason := 1, pad := 0, srcV4 := 0, srcV6 := src, timestamp := now }

/-- The IPv4 path does what its stage says to the IPv4 maps. -/
theorem ipv4Path_eq (k : Kernel) (now : UInt64) (host : Host) (src : Ip4) (p : UInt8) {st : Stage}
    (h : (k.v4.view src).stage now (k.filters p) = st) :
    ipv4Path k now host src p =
      ({ k with
          v4 := k.v4.packet now host src st
          eventRingbuf := k.eventRingbuf ++ emitted host (writeEvent4 src now) st }, st.verdict) := by
  subst h
  unfold ipv4Path View.stage Kernel.filters
  simp only [IpMaps.view]
  -- the checks in the order of the source
  by_cases ha : (k.v4.allowlistMap.lookupElem src).isSome = true
  · simp [ha, IpMaps.packet, emitted, Stage.verdict]
  by_cases hf : k.protoFilterMap.lookupElem p = some 1
  · simp [ha, hf, IpMaps.packet, emitted, Stage.verdict]
  by_cases hl : (k.v4.blacklistMap.lookupElem src).isSome = true
  · simp [ha, hf, hl, IpMaps.packet, emitted, Stage.verdict]
  cases hb : k.v4.rateMap.get? src with
  | none => simp [ha, hf, hl, bucketStage, IpMaps.packet, emitted, Stage.verdict, freshBucket]
  | some tb =>
    by_cases hd : (tokenBucketCheck tb now).2 = true
    · cases hr : host.reserve <;>
        simp [ha, hf, hl, hb, hd, hr, bucketStage, IpMaps.packet, emitted, Stage.verdict, writeEvent4]
    · simp [ha, hf, hl, hb, hd, bucketStage, IpMaps.packet, emitted, Stage.verdict]

/-- The IPv6 path does what its stage says to the IPv6 maps. -/
theorem ipv6Path_eq (k : Kernel) (now : UInt64) (host : Host) (src : Ip6) (p : UInt8) {st : Stage}
    (h : (k.v6.view src).stage now (k.filters p) = st) :
    ipv6Path k now host src p =
      ({ k with
          v6 := k.v6.packet now host src st
          eventRingbuf := k.eventRingbuf ++ emitted host (writeEvent6 src now) st }, st.verdict) := by
  subst h
  unfold ipv6Path View.stage Kernel.filters
  simp only [IpMaps.view]
  -- the checks in the order of the source
  by_cases ha : (k.v6.allowlistMap.lookupElem src).isSome = true
  · simp [ha, IpMaps.packet, emitted, Stage.verdict]
  by_cases hf : k.protoFilterMap.lookupElem p = some 1
  · simp [ha, hf, IpMaps.packet, emitted, Stage.verdict]
  by_cases hl : (k.v6.blacklistMap.lookupElem src).isSome = true
  · simp [ha, hf, hl, IpMaps.packet, emitted, Stage.verdict]
  cases hb : k.v6.rateMap.get? src with
  | none => simp [ha, hf, hl, bucketStage, IpMaps.packet, emitted, Stage.verdict, freshBucket]
  | some tb =>
    by_cases hd : (tokenBucketCheck tb now).2 = true
    · cases hr : host.reserve <;>
        simp [ha, hf, hl, hb, hd, hr, bucketStage, IpMaps.packet, emitted, Stage.verdict, writeEvent6]
    · simp [ha, hf, hl, hb, hd, bucketStage, IpMaps.packet, emitted, Stage.verdict]

/-! ## The filter -/

/-- The kernel after the counter and the global bucket have seen a frame. -/
def charged (k : Kernel) (now : UInt64) (host : Host) : Kernel :=
  { countPacket k host.cpu with globalRateMap := (globalBucketCheck k.globalRateMap now).1 }

/-- The filter charges the aggregate bucket and then dispatches. -/
theorem fluxguardFilter_eq (k : Kernel) (now : UInt64) (host : Host) (data : List UInt8) :
    fluxguardFilter k now host data =
      if data.length < 14 then (k, .pass)
      else if k.overloaded now = true then (charged k now host, .drop)
      else dispatch (charged k now host) now host data := rfl

@[simp] theorem view_charged (k : Kernel) (now : UInt64) (host : Host) (s : Source) :
    (charged k now host).view s = k.view s := by cases s <;> rfl

@[simp] theorem room_charged (k : Kernel) (now : UInt64) (host : Host) (s : Source) :
    (charged k now host).room s = k.room s := by cases s <;> rfl

@[simp] theorem filters_charged (k : Kernel) (now : UInt64) (host : Host) (p : UInt8) :
    (charged k now host).filters p = k.filters p := rfl

/-- A frame of no source passes. -/
theorem dispatch_none (k : Kernel) (now : UInt64) (host : Host) {data : List UInt8} (hl : ¬ data.length < 14)
    (h : sourceOf data = none) : dispatch k now host data = (k, .pass) := by
  unfold sourceOf at h
  rw [if_neg hl] at h
  unfold dispatch
  split_ifs at h ⊢ <;> rfl

/-- An IPv4 frame takes the IPv4 path. -/
theorem dispatch_v4 (k : Kernel) (now : UInt64) (host : Host) {data : List UInt8} {a : Ip4}
    (h : sourceOf data = some (.v4 a)) : dispatch k now host data = ipv4Path k now host a (protocol data) := by
  unfold sourceOf at h
  unfold dispatch
  split_ifs at h ⊢ <;> simp_all

/-- An IPv6 frame takes the IPv6 path. -/
theorem dispatch_v6 (k : Kernel) (now : UInt64) (host : Host) {data : List UInt8} {a : Ip6}
    (h : sourceOf data = some (.v6 a)) : dispatch k now host data = ipv6Path k now host a (nexthdr data) := by
  unfold sourceOf at h
  unfold dispatch
  split_ifs at h ⊢ <;> simp_all

theorem length_of_source {data : List UInt8} {s : Source} (h : sourceOf data = some s) : ¬ data.length < 14 := by
  intro hl; unfold sourceOf at h; rw [if_pos hl] at h; cases h

theorem dispatch_globalRateMap (k : Kernel) (now : UInt64) (host : Host) {data : List UInt8}
    (hl : ¬ data.length < 14) : (dispatch k now host data).1.globalRateMap = k.globalRateMap := by
  cases h : sourceOf data with
  | none => rw [dispatch_none k now host hl h]
  | some s =>
    cases s with
    | v4 a => rw [dispatch_v4 k now host h, ipv4Path_eq k now host a _ rfl]
    | v6 a => rw [dispatch_v6 k now host h, ipv6Path_eq k now host a _ rfl]

/-- No packet changes the protocol filter. -/
theorem dispatch_filters (k : Kernel) (now : UInt64) (host : Host) (data : List UInt8) (p : UInt8) :
    (dispatch k now host data).1.filters p = k.filters p := by
  unfold dispatch
  split
  · split
    · rfl
    · rw [ipv4Path_eq k now host _ _ rfl]; rfl
  · split
    · split
      · rfl
      · rw [ipv6Path_eq k now host _ _ rfl]; rfl
    · rfl

theorem IpMaps.room_packet {α : Type} [DecidableEq α] {n m : ℕ} {maps : IpMaps α n m} (h : maps.room = false)
    (now : UInt64) (host : Host) (src : α) (st : Stage) : (maps.packet now host src st).room = false := by
  have hfull : maps.blacklistMap.entries.size = n :=
    Nat.le_antisymm maps.blacklistMap.size_le (by simpa [room] using h)
  cases st with
  | exhausted =>
    have hsize := BpfHash.size_update_of_full src 1 hfull
    exact decide_eq_false (by simp [packet, hsize])
  | allowed => exact h
  | filtered => exact h
  | blacklisted => exact h
  | fresh => exact h
  | admitted => exact h

/-- Packets make no room in a full blacklist. -/
theorem dispatch_room {k : Kernel} {s : Source} (h : k.room s = false) (now : UInt64) (host : Host)
    (data : List UInt8) : (dispatch k now host data).1.room s = false := by
  unfold dispatch
  split
  · split
    · exact h
    · rw [ipv4Path_eq k now host _ _ rfl]
      cases s with
      | v4 a => exact IpMaps.room_packet h ..
      | v6 a => exact h
  · split
    · split
      · exact h
      · rw [ipv6Path_eq k now host _ _ rfl]
        cases s with
        | v4 a => exact h
        | v6 a => exact IpMaps.room_packet h ..
    · exact h

/-- What one packet does to the view of every source. -/
theorem view_dispatch (k : Kernel) (now : UInt64) (host : Host) {data : List UInt8} (hl : ¬ data.length < 14)
    (s : Source) :
    (dispatch k now host data).1.view s =
      if sourceOf data = some s then
        (k.view s).packet now host (k.room s) ((k.view s).stage now (k.filters (protoOf data s)))
      else k.view s := by
  cases h : sourceOf data with
  | none => rw [dispatch_none k now host hl h]; simp
  | some src =>
    cases src with
    | v4 a =>
      rw [dispatch_v4 k now host h, ipv4Path_eq k now host a _ rfl]
      cases s with
      | v4 b =>
        by_cases hab : b = a
        · subst hab; rw [if_pos rfl]; exact IpMaps.view_packet_self k.v4 now host b _
        · rw [if_neg (by simpa using Ne.symm hab)]; exact IpMaps.view_packet_ne k.v4 now host hab _
      | v6 b => rw [if_neg (by simp)]; rfl
    | v6 a =>
      rw [dispatch_v6 k now host h, ipv6Path_eq k now host a _ rfl]
      cases s with
      | v4 b => rw [if_neg (by simp)]; rfl
      | v6 b =>
        by_cases hab : b = a
        · subst hab; rw [if_pos rfl]; exact IpMaps.view_packet_self k.v6 now host b _
        · rw [if_neg (by simpa using Ne.symm hab)]; exact IpMaps.view_packet_ne k.v6 now host hab _

/-- The verdict is the stage's. -/
theorem verdict_dispatch (k : Kernel) (now : UInt64) (host : Host) {data : List UInt8} {s : Source}
    (h : sourceOf data = some s) :
    (dispatch k now host data).2 = ((k.view s).stage now (k.filters (protoOf data s))).verdict := by
  cases s with
  | v4 a => rw [dispatch_v4 k now host h, ipv4Path_eq k now host a _ rfl]; rfl
  | v6 a => rw [dispatch_v6 k now host h, ipv6Path_eq k now host a _ rfl]; rfl

/-- **Every event changes the view of a source as its act says.** -/
theorem Kernel.view_step (k : Kernel) (s : Source) (e : Event) :
    (k.step e).view s = (k.view s).step (k.act s e) := by
  cases e with
  | frame now host data =>
    simp only [Kernel.step, Kernel.act, fluxguardFilter_eq]
    by_cases hl : data.length < 14
    · have hs : sourceOf data ≠ some s := fun h => length_of_source h hl
      simp [hl, hs, View.step]
    · by_cases ho : k.overloaded now = true
      · simp [hl, ho, View.step]
      · rw [if_neg hl, if_neg ho, view_dispatch _ now host hl]
        rw [Bool.not_eq_true] at ho
        by_cases hs : sourceOf data = some s
        · rw [if_pos hs, if_pos ⟨hs, ho⟩, view_charged]
          cases s <;> rfl
        · rw [if_neg hs, if_neg (fun h => hs h.1), view_charged]; rfl
  | v4 op =>
    cases s with
    | v4 a => exact IpMaps.view_apply k.v4 a op
    | v6 a => rfl
  | v6 op =>
    cases s with
    | v4 a => rfl
    | v6 a => exact IpMaps.view_apply k.v6 a op
  | protoSet p action => cases s <;> rfl
  | protoDel p => cases s <;> rfl

/-- **The verdict on a packet of a source** is its stage's, unless the global bucket drops it. -/
theorem Kernel.verdict_packet (k : Kernel) (now : UInt64) (host : Host) {data : List UInt8} {s : Source}
    (h : sourceOf data = some s) :
    k.verdict (.frame now host data) =
      some (if k.overloaded now = true then .drop
        else ((k.view s).stage now (k.filters (protoOf data s))).verdict) := by
  simp only [Kernel.verdict, fluxguardFilter_eq, if_neg (length_of_source h)]
  split
  · rfl
  · rw [verdict_dispatch _ now host h, view_charged]; cases s <;> rfl

theorem Event.source_eq {e : Event} {s : Source} (h : e.source = some s) :
    ∃ now host data, e = .frame now host data ∧ sourceOf data = some s := by
  cases e with
  | frame now host data => exact ⟨now, host, data, rfl, h⟩
  | v4 op => cases h
  | v6 op => cases h
  | protoSet p action => cases h
  | protoDel p => cases h

/-- A packet act is a frame of the source that the global bucket lets through. -/
theorem Kernel.act_packet {k : Kernel} {s : Source} {e : Event} {now : UInt64} {host : Host}
    {filtered room : Bool} (h : k.act s e = .packet now host filtered room) :
    ∃ data, e = .frame now host data ∧ sourceOf data = some s ∧ k.overloaded now = false ∧
      filtered = k.filters (protoOf data s) ∧ room = k.room s := by
  cases e with
  | frame now' host' data =>
    simp only [Kernel.act] at h
    split at h
    · rename_i hc
      cases h
      exact ⟨data, rfl, hc.1, hc.2, rfl, rfl⟩
    · cases h
  | v4 op => cases s <;> cases op <;> simp only [Kernel.act, IpMaps.act] at h <;> (try split at h) <;> cases h
  | v6 op => cases s <;> cases op <;> simp only [Kernel.act, IpMaps.act] at h <;> (try split at h) <;> cases h
  | protoSet p action => cases h
  | protoDel p => cases h

/-- The global bucket is charged by every frame with an Ethernet header, and by nothing else. -/
theorem Kernel.globalRateMap_step (k : Kernel) (e : Event) :
    (k.step e).globalRateMap = k.globalRateMap ∧ e.source = none ∨
      ∃ now host data, e = .frame now host data ∧ ¬ data.length < 14 ∧
        (k.step e).globalRateMap = (globalBucketCheck k.globalRateMap now).1 := by
  cases e with
  | frame now host data =>
    by_cases hl : data.length < 14
    · left; simp [Kernel.step, fluxguardFilter_eq, Event.source, sourceOf, hl]
    · refine Or.inr ⟨now, host, data, rfl, hl, ?_⟩
      simp only [Kernel.step, fluxguardFilter_eq, if_neg hl]
      split
      · rfl
      · rw [dispatch_globalRateMap _ now host hl]; rfl
  | v4 op => exact Or.inl ⟨rfl, rfl⟩
  | v6 op => exact Or.inl ⟨rfl, rfl⟩
  | protoSet p action => exact Or.inl ⟨rfl, rfl⟩
  | protoDel p => exact Or.inl ⟨rfl, rfl⟩

/-! ## Events by stage -/

/-- A packet that a stage decides: its verdict, and the view after it. -/
theorem Kernel.of_stageOf {k : Kernel} {s : Source} {e : Event} {st : Stage} (h : k.stageOf s e = some st) :
    ∃ now host data, e = .frame now host data ∧ sourceOf data = some s ∧ k.overloaded now = false ∧
      (k.view s).stage now (k.filters (protoOf data s)) = st ∧ k.verdict e = some st.verdict ∧
      (k.step e).view s = (k.view s).packet now host (k.room s) st := by
  unfold Kernel.stageOf at h
  split at h
  · rename_i now host filtered room ha
    obtain ⟨data, rfl, hs, hno, rfl, rfl⟩ := Kernel.act_packet ha
    cases h
    refine ⟨now, host, data, rfl, hs, hno, rfl, ?_, ?_⟩
    · rw [Kernel.verdict_packet k now host hs, if_neg (by simp [hno])]
    · rw [Kernel.view_step, ha]; rfl
  · cases h

/-- An event that no stage decides is dropped by the global bucket if it is a packet of the
source, and leaves the source's bucket alone if it does not evict it. -/
theorem Kernel.of_stageOf_none {k : Kernel} {s : Source} {e : Event} (h : k.stageOf s e = none) :
    (e.source = some s → k.verdict e = some .drop) ∧
      (e ≠ evictRate s → ((k.step e).view s).bucket = (k.view s).bucket) := by
  have hact : ∀ now host filtered room, k.act s e ≠ .packet now host filtered room := by
    intro now host filtered room ha
    simp [Kernel.stageOf, ha] at h
  constructor
  · intro hs
    obtain ⟨now, host, data, rfl, hs⟩ := Event.source_eq hs
    rw [Kernel.verdict_packet k now host hs, if_pos]
    by_contra hno
    rw [Bool.not_eq_true] at hno
    exact hact now host _ _ (if_pos ⟨hs, hno⟩)
  · intro hev
    rw [Kernel.view_step]
    cases ha : k.act s e with
    | packet now host filtered room => exact absurd ha (hact _ _ _ _)
    | evictRate =>
      exfalso
      apply hev
      cases e with
      | frame now host data => simp only [Kernel.act] at ha; split at ha <;> cases ha
      | v4 op =>
        cases s with
        | v4 a =>
          cases op <;> simp only [Kernel.act, IpMaps.act] at ha <;> split at ha <;> cases ha
          subst_vars; rfl
        | v6 a => cases ha
      | v6 op =>
        cases s with
        | v4 a => cases ha
        | v6 a =>
          cases op <;> simp only [Kernel.act, IpMaps.act] at ha <;> split at ha <;> cases ha
          subst_vars; rfl
      | protoSet p action => cases ha
      | protoDel p => cases ha
    | allow => rfl
    | disallow => rfl
    | blacklist => rfl
    | unblacklist => rfl
    | evictMeter => rfl
    | idle => rfl

/-- A packet lists its source when it is exhausted and there is room. -/
theorem View.listed_packet (v : View) (now : UInt64) (host : Host) (room : Bool) (st : Stage) :
    (v.packet now host room st).listed = (v.listed || (decide (st = .exhausted) && room)) := by
  cases st <;> simp [packet, metered]

/-- It does not change the allowlist. -/
theorem View.allowed_packet (v : View) (now : UInt64) (host : Host) (room : Bool) (st : Stage) :
    (v.packet now host room st).allowed = v.allowed := by
  cases st <;> rfl

end FluxGuard
