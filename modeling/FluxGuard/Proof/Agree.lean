import FluxGuard.Proof.View

/-!
# Two kernels that say the same about a key

`IpMaps.Agree maps a maps' b`: the four maps of a family hold the same values for `a` as
the four maps of a family, maybe the other one, hold for `b`.

* `Agree.packet`, `Agree.apply`: a packet or a map operation on both keys keeps this.
* `Agree.packet_of_ne`, `Agree.apply_of_ne`: so does one on other keys.
* `Kernel.step_frame`: a frame changes nothing, or it is a packet to the maps of its family.
-/

namespace FluxGuard

/-- The four maps of one family have the same entries for `a` as those of another for `b`. -/
structure IpMaps.Agree {α β : Type} [DecidableEq α] [DecidableEq β] {n m n' m' : ℕ} (maps : IpMaps α n m) (a : α)
    (maps' : IpMaps β n' m') (b : β) : Prop where
  allowlist : maps.allowlistMap.lookupElem a = maps'.allowlistMap.lookupElem b
  blacklist : maps.blacklistMap.lookupElem a = maps'.blacklistMap.lookupElem b
  meter : maps.meterMap.get? a = maps'.meterMap.get? b
  rate : maps.rateMap.get? a = maps'.rateMap.get? b

/-- Neither hash map of the family is full. -/
def IpMaps.Roomy {α : Type} {n m : ℕ} (maps : IpMaps α n m) : Prop :=
  maps.blacklistMap.entries.size < n ∧ maps.allowlistMap.entries.size < m

instance {α : Type} {n m : ℕ} (maps : IpMaps α n m) : Decidable maps.Roomy := inferInstanceAs (Decidable (_ ∧ _))

/-- The key that a map operation is about. -/
def MapOp.key {α : Type} : MapOp α → α
  | .allow a _ | .disallow a | .blacklist a _ | .unblacklist a | .evictMeter a | .evictRate a => a

/-- The same operation on another key. -/
def MapOp.map {α β : Type} (f : α → β) : MapOp α → MapOp β
  | .allow a v => .allow (f a) v
  | .disallow a => .disallow (f a)
  | .blacklist a v => .blacklist (f a) v
  | .unblacklist a => .unblacklist (f a)
  | .evictMeter a => .evictMeter (f a)
  | .evictRate a => .evictRate (f a)

theorem MapOp.key_map {α β : Type} (f : α → β) (op : MapOp α) : (op.map f).key = f op.key := by
  cases op <;> rfl

theorem MapOp.map_id {α : Type} (op : MapOp α) : op.map id = op := by cases op <;> rfl

namespace IpMaps.Agree

variable {α β : Type} [DecidableEq α] [DecidableEq β] {n m n' m' : ℕ}
variable {maps : IpMaps α n m} {a : α} {maps' : IpMaps β n' m'} {b : β}

/-- Agreement goes both ways. -/
theorem symm (h : maps.Agree a maps' b) : maps'.Agree b maps a :=
  ⟨h.allowlist.symm, h.blacklist.symm, h.meter.symm, h.rate.symm⟩

/-- Maps that agree about two sources show the filter the same of them. -/
theorem view (h : maps.Agree a maps' b) : maps.view a = maps'.view b := by
  unfold IpMaps.view
  rw [h.allowlist, h.blacklist, h.meter, h.rate]

/-- The meter entries after one more packet of each. -/
theorem metered (h : maps.Agree a maps' b) {host host' : Host} (hm : host.meterUpdate = host'.meterUpdate) :
    (FluxGuard.meter maps.meterMap host a).get? a = (FluxGuard.meter maps'.meterMap host' b).get? b := by
  rw [get?_meter_self, get?_meter_self, h.meter]
  unfold counted
  rw [hm]

/-- The buckets after a check of each. -/
theorem charged (h : maps.Agree a maps' b) (now : UInt64) :
    (match maps.rateMap.get? a with
      | some tb => maps.rateMap.set a (tokenBucketCheck tb now).1
      | none => maps.rateMap).get? a =
    (match maps'.rateMap.get? b with
      | some tb => maps'.rateMap.set b (tokenBucketCheck tb now).1
      | none => maps'.rateMap).get? b := by
  have hrate := h.rate
  cases hb : maps'.rateMap.get? b with
  | none =>
    rw [hb] at hrate
    simp only [hrate, hb]
  | some tb =>
    rw [hb] at hrate
    simp only [hrate, Dict.get?_set_self]

/-- **A packet of each, decided by the same stage**, finds the same and leaves the same. -/
theorem packet (h : maps.Agree a maps' b) (hr : maps.Roomy) (hr' : maps'.Roomy) {host host' : Host}
    (hm : host.meterUpdate = host'.meterUpdate) (hu : host.rateUpdate = host'.rateUpdate) (now : UInt64)
    (st : Stage) : (maps.packet now host a st).Agree a (maps'.packet now host' b st) b := by
  cases st with
  | allowed => exact h
  | filtered => exact h
  | blacklisted => exact ⟨h.allowlist, h.blacklist, h.metered hm, h.rate⟩
  | fresh =>
    refine ⟨h.allowlist, h.blacklist, h.metered hm, ?_⟩
    simp only [IpMaps.packet, hu]
    split
    · rw [Dict.get?_set_self, Dict.get?_set_self]
    · exact h.rate
  | admitted => exact ⟨h.allowlist, h.blacklist, h.metered hm, h.charged now⟩
  -- the only stage that writes a hash map: both have room for the block
  | exhausted =>
    refine ⟨h.allowlist, ?_, h.metered hm, h.charged now⟩
    simp only [IpMaps.packet, BpfHash.lookupElem_update_self hr.1, BpfHash.lookupElem_update_self hr'.1]

/-- A packet of another source leaves the agreement as it is. -/
theorem packet_of_ne (h : maps.Agree a maps' b) {src : α} (hne : a ≠ src) (now : UInt64) (host : Host)
    (st : Stage) : (maps.packet now host src st).Agree a maps' b := by
  have hrate : (match maps.rateMap.get? src with
      | some tb => maps.rateMap.set src (tokenBucketCheck tb now).1
      | none => maps.rateMap).get? a = maps.rateMap.get? a := by
    split
    · exact Dict.get?_set_ne _ _ hne
    · rfl
  have hmeter : (FluxGuard.meter maps.meterMap host src).get? a = maps'.meterMap.get? b := by
    rw [get?_meter_ne _ _ hne, h.meter]
  cases st with
  | allowed => exact h
  | filtered => exact h
  | blacklisted => exact ⟨h.allowlist, h.blacklist, hmeter, h.rate⟩
  | fresh =>
    refine ⟨h.allowlist, h.blacklist, hmeter, ?_⟩
    simp only [IpMaps.packet]
    split
    · rw [Dict.get?_set_ne _ _ hne, h.rate]
    · exact h.rate
  | admitted => exact ⟨h.allowlist, h.blacklist, hmeter, hrate.trans h.rate⟩
  | exhausted =>
    exact ⟨h.allowlist, (BpfHash.lookupElem_update_ne _ _ hne).trans h.blacklist, hmeter, hrate.trans h.rate⟩

/-- **A map operation on both keys** keeps the agreement. -/
theorem apply {f : α → β} (h : maps.Agree a maps' (f a)) (hr : maps.Roomy) (hr' : maps'.Roomy) {op : MapOp α}
    (hop : op.key = a) : (maps.apply op).Agree a (maps'.apply (op.map f)) (f a) := by
  subst hop
  cases op with
  | allow c v =>
    exact ⟨(BpfHash.lookupElem_update_self hr.2 c v).trans (BpfHash.lookupElem_update_self hr'.2 (f c) v).symm,
      h.blacklist, h.meter, h.rate⟩
  | disallow c =>
    exact ⟨(BpfHash.lookupElem_delete_self _ c).trans (BpfHash.lookupElem_delete_self _ (f c)).symm,
      h.blacklist, h.meter, h.rate⟩
  | blacklist c v =>
    exact ⟨h.allowlist,
      (BpfHash.lookupElem_update_self hr.1 c v).trans (BpfHash.lookupElem_update_self hr'.1 (f c) v).symm,
      h.meter, h.rate⟩
  | unblacklist c =>
    exact ⟨h.allowlist, (BpfHash.lookupElem_delete_self _ c).trans (BpfHash.lookupElem_delete_self _ (f c)).symm,
      h.meter, h.rate⟩
  | evictMeter c =>
    exact ⟨h.allowlist, h.blacklist,
      (Dict.get?_erase_self _ c).trans (Dict.get?_erase_self _ (f c)).symm, h.rate⟩
  | evictRate c =>
    exact ⟨h.allowlist, h.blacklist, h.meter,
      (Dict.get?_erase_self _ c).trans (Dict.get?_erase_self _ (f c)).symm⟩

/-- So does an operation on another key. -/
theorem apply_of_ne (h : maps.Agree a maps' b) {op : MapOp α} (hne : a ≠ op.key) :
    (maps.apply op).Agree a maps' b := by
  cases op with
  | allow c v => exact ⟨(BpfHash.lookupElem_update_ne _ v hne).trans h.allowlist, h.blacklist, h.meter, h.rate⟩
  | disallow c => exact ⟨(BpfHash.lookupElem_delete_ne _ hne).trans h.allowlist, h.blacklist, h.meter, h.rate⟩
  | blacklist c v => exact ⟨h.allowlist, (BpfHash.lookupElem_update_ne _ v hne).trans h.blacklist, h.meter, h.rate⟩
  | unblacklist c => exact ⟨h.allowlist, (BpfHash.lookupElem_delete_ne _ hne).trans h.blacklist, h.meter, h.rate⟩
  | evictMeter c => exact ⟨h.allowlist, h.blacklist, (Dict.get?_erase_ne _ hne).trans h.meter, h.rate⟩
  | evictRate c => exact ⟨h.allowlist, h.blacklist, h.meter, (Dict.get?_erase_ne _ hne).trans h.rate⟩

end IpMaps.Agree

/-! ## Kernels -/

/-- No hash map of either family is full. -/
def Kernel.Roomy (k : Kernel) : Prop := k.v4.Roomy ∧ k.v6.Roomy

instance (k : Kernel) : Decidable k.Roomy := inferInstanceAs (Decidable (_ ∧ _))

/-- The LRU maps take a new entry. -/
def Event.Inserts : Event → Prop
  | .frame _ host _ => host.meterUpdate = true ∧ host.rateUpdate = true
  | _ => True

/-- The LRU maps give an entry up. -/
def Event.Evicts : Event → Prop
  | .v4 (.evictMeter _) | .v4 (.evictRate _) | .v6 (.evictMeter _) | .v6 (.evictRate _) => True
  | _ => False

/-- A run in which no map reaches its capacity: no insert fails and nothing is evicted. -/
structure Uncrowded (k₀ : Kernel) (es : List Event) : Prop where
  roomy : ∀ n ≤ es.length, (kAt k₀ es n).Roomy
  inserts : ∀ e ∈ es, e.Inserts
  keeps : ∀ e ∈ es, ¬ e.Evicts

/-- Every insert of an uncrowded run finds room. -/
theorem Uncrowded.inserts_at {k₀ : Kernel} {es : List Event} (h : Uncrowded k₀ es) {n : ℕ} (hn : n < es.length) :
    es[n].Inserts := h.inserts _ (List.getElem_mem hn)

/-- The kernel after a packet of an IPv4 source that the global bucket let through. -/
def Kernel.packet4 (k : Kernel) (now : UInt64) (host : Host) (a : Ip4) (st : Stage) : Kernel :=
  { charged k now host with
    v4 := k.v4.packet now host a st
    eventRingbuf := k.eventRingbuf ++ emitted host (writeEvent4 a now) st }

/-- The kernel after an IPv6 packet that the global bucket let through. -/
def Kernel.packet6 (k : Kernel) (now : UInt64) (host : Host) (a : Ip6) (st : Stage) : Kernel :=
  { charged k now host with
    v6 := k.v6.packet now host a st
    eventRingbuf := k.eventRingbuf ++ emitted host (writeEvent6 a now) st }

section Frame

variable (k : Kernel) (now : UInt64) (host : Host) {data : List UInt8}

/-- What the filter does with an IPv4 frame while the aggregate limit holds. -/
theorem step_packet4 {a : Ip4} (hs : sourceOf data = some (.v4 a)) (ho : k.overloaded now = false) :
    fluxguardFilter k now host data =
      (k.packet4 now host a ((k.v4.view a).stage now (k.filters (protocol data))),
        ((k.v4.view a).stage now (k.filters (protocol data))).verdict) := by
  rw [fluxguardFilter_eq, if_neg (length_of_source hs), ho, if_neg Bool.false_ne_true, dispatch_v4 _ now host hs,
    ipv4Path_eq _ now host a _ rfl]
  rfl

/-- The same for an IPv6 frame. -/
theorem step_packet6 {a : Ip6} (hs : sourceOf data = some (.v6 a)) (ho : k.overloaded now = false) :
    fluxguardFilter k now host data =
      (k.packet6 now host a ((k.v6.view a).stage now (k.filters (nexthdr data))),
        ((k.v6.view a).stage now (k.filters (nexthdr data))).verdict) := by
  rw [fluxguardFilter_eq, if_neg (length_of_source hs), ho, if_neg Bool.false_ne_true, dispatch_v6 _ now host hs,
    ipv6Path_eq _ now host a _ rfl]
  rfl

/-- A frame without a source, or that the global bucket drops, changes no map of either family. -/
theorem step_unseen (h : sourceOf data = none ∨ k.overloaded now = true) :
    (k.step (.frame now host data)).v4 = k.v4 ∧ (k.step (.frame now host data)).v6 = k.v6 ∧
      (k.step (.frame now host data)).protoFilterMap = k.protoFilterMap := by
  rw [Kernel.step, fluxguardFilter_eq]
  -- a short frame returns before the global bucket is charged
  by_cases hl : data.length < 14
  · rw [if_pos hl]
    exact ⟨rfl, rfl, rfl⟩
  · rw [if_neg hl]
    by_cases ho : k.overloaded now = true
    · rw [if_pos ho]
      exact ⟨rfl, rfl, rfl⟩
    · rw [if_neg ho, dispatch_none _ now host hl (h.resolve_right ho)]
      exact ⟨rfl, rfl, rfl⟩

end Frame

end FluxGuard
