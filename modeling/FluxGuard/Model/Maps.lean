import FluxGuard.Data.Dict

/-!
# BPF maps and the filter's state

The maps of `fluxguard_kern.c`. A `BPF_MAP_TYPE_HASH` holds at most
`max_entries` keys and refuses a new key when it is full; a
`BPF_MAP_TYPE_LRU_HASH` makes room by evicting entries, which a run of the
filter shows as events of their own (`MapOp.evictMeter`, `MapOp.evictRate`).

Each address family has its own four maps (`IpMaps`), with the same value types
and other sizes. The per-CPU counter, the global bucket, the protocol filter and
the ring buffer are shared.
-/

namespace FluxGuard

/-- A `BPF_MAP_TYPE_HASH` with at most `maxEntries` entries. -/
structure BpfHash (α β : Type) (maxEntries : ℕ) where
  entries : Dict α β
  size_le : entries.size ≤ maxEntries
deriving DecidableEq

namespace BpfHash

variable {α β : Type} {n : ℕ}

/-- A new map. -/
def empty : BpfHash α β n := ⟨Dict.empty, Nat.zero_le _⟩

variable [DecidableEq α]

instance : Membership α (BpfHash α β n) := ⟨fun m k => k ∈ m.entries⟩

instance (m : BpfHash α β n) (k : α) : Decidable (k ∈ m) := inferInstanceAs (Decidable (k ∈ m.entries))

/-- `bpf_map_lookup_elem`. -/
def lookupElem (m : BpfHash α β n) (k : α) : Option β := m.entries.get? k

/-- `bpf_map_update_elem` with `BPF_ANY`: a new key does not fit a full map. -/
def updateElem (m : BpfHash α β n) (k : α) (v : β) : Option (BpfHash α β n) :=
  if h : k ∈ m.entries then
    some ⟨m.entries.set k v, by rw [Dict.size_set_of_mem v h]; exact m.size_le⟩
  else if hs : m.entries.size < n then
    some ⟨m.entries.set k v, by rw [Dict.size_set_of_not_mem v h]; exact hs⟩
  else none

/-- `bpf_map_delete_elem`: an absent key is an error (`ENOENT`). -/
def deleteElem (m : BpfHash α β n) (k : α) : Option (BpfHash α β n) :=
  if k ∈ m.entries then
    some ⟨m.entries.erase k, Nat.le_trans (Dict.size_erase_le _ _) m.size_le⟩
  else none

/-- The update whose result the caller drops. -/
def update (m : BpfHash α β n) (k : α) (v : β) : BpfHash α β n := (m.updateElem k v).getD m

/-- The delete whose result the caller drops. -/
def delete (m : BpfHash α β n) (k : α) : BpfHash α β n := (m.deleteElem k).getD m

omit [DecidableEq α] in
theorem mem_iff {m : BpfHash α β n} {k : α} : k ∈ m ↔ k ∈ m.entries := Iff.rfl

/-- A lookup finds something exactly for a key of the map. -/
theorem isSome_lookupElem {m : BpfHash α β n} {k : α} : (m.lookupElem k).isSome = decide (k ∈ m) := by
  rw [Bool.eq_iff_iff, decide_eq_true_iff, mem_iff, Dict.mem_iff_isSome]; rfl

@[simp] theorem lookupElem_empty (k : α) : (empty : BpfHash α β n).lookupElem k = none := rfl

theorem not_mem_empty (k : α) : k ∉ (empty : BpfHash α β n) := by
  rw [mem_iff, ← Dict.get?_eq_none_iff]; rfl

/-- An update reaches its key unless the key is new and the map full. -/
theorem update_entries (m : BpfHash α β n) (k : α) (v : β) :
    (m.update k v).entries =
      if k ∈ m ∨ m.entries.size < n then m.entries.set k v else m.entries := by
  unfold update updateElem
  by_cases h : k ∈ m.entries
  · simp [mem_iff, h]
  · by_cases hs : m.entries.size < n <;> simp [mem_iff, h, hs]

/-- An update of a full map leaves it full. -/
theorem size_update_of_full {m : BpfHash α β n} (k : α) (v : β) (h : m.entries.size = n) :
    (m.update k v).entries.size = n := by
  rw [update_entries]
  by_cases hk : k ∈ m
  · rw [if_pos (Or.inl hk), Dict.size_set_of_mem v hk, h]
  · rw [if_neg (by rw [h]; simp [hk]), h]

/-- A full map takes no new key; a key it has keeps its place. -/
theorem mem_update {m : BpfHash α β n} {k a : α} {v : β} :
    a ∈ m.update k v ↔ a ∈ m ∨ a = k ∧ m.entries.size < n := by
  rw [mem_iff, update_entries]
  by_cases h : k ∈ m ∨ m.entries.size < n
  · rw [if_pos h, Dict.mem_set]
    constructor
    · rintro (rfl | ha)
      · rcases h with h | h
        · exact Or.inl h
        · exact Or.inr ⟨rfl, h⟩
      · exact Or.inl ha
    · rintro (ha | ⟨ha, -⟩)
      · exact Or.inr ha
      · exact Or.inl ha
  · rw [if_neg h]
    rw [not_or] at h
    exact ⟨Or.inl, fun ha => ha.resolve_right fun hk => h.2 hk.2⟩

/-- A delete takes its own key away and no other. -/
theorem mem_delete {m : BpfHash α β n} {k a : α} : a ∈ m.delete k ↔ a ≠ k ∧ a ∈ m := by
  unfold delete deleteElem
  by_cases h : k ∈ m.entries
  · rw [if_pos h, Option.getD_some, mem_iff, Dict.mem_erase]; rfl
  · rw [if_neg h, Option.getD_none]
    constructor
    · intro ha
      exact ⟨fun he => h (he ▸ ha), ha⟩
    · intro ha
      exact ha.2

/-- With room left, an update is what the next lookup of the key finds. -/
theorem lookupElem_update_self {m : BpfHash α β n} (h : m.entries.size < n) (k : α) (v : β) :
    (m.update k v).lookupElem k = some v := by
  unfold lookupElem
  rw [update_entries, if_pos (Or.inr h), Dict.get?_set_self]

/-- An update of one key is not seen at another. -/
theorem lookupElem_update_ne (m : BpfHash α β n) {k a : α} (v : β) (h : a ≠ k) :
    (m.update k v).lookupElem a = m.lookupElem a := by
  unfold lookupElem
  rw [update_entries]
  split
  · exact Dict.get?_set_ne _ _ h
  · rfl

/-- A delete is the erasure of the entry. -/
theorem delete_entries (m : BpfHash α β n) (k : α) : (m.delete k).entries = m.entries.erase k := by
  unfold delete deleteElem
  by_cases h : k ∈ m.entries
  · rw [if_pos h]; rfl
  · rw [if_neg h, Option.getD_none]
    refine Dict.ext_items (List.filter_eq_self.2 ?_).symm
    intro p hp
    rw [decide_eq_true_eq]
    rintro rfl
    exact h (List.mem_map.2 ⟨p, hp, rfl⟩)

theorem lookupElem_delete_self (m : BpfHash α β n) (k : α) : (m.delete k).lookupElem k = none := by
  unfold lookupElem
  rw [delete_entries, Dict.get?_erase_self]

/-- A delete of one key is not seen at another. -/
theorem lookupElem_delete_ne (m : BpfHash α β n) {k a : α} (h : a ≠ k) :
    (m.delete k).lookupElem a = m.lookupElem a := by
  unfold lookupElem
  rw [delete_entries, Dict.get?_erase_ne _ h]

end BpfHash

/-- A source address as the filter keys it: the four bytes of `iph->saddr`, loaded
as a `__u32`. -/
abbrev Ip4 := UInt32

/-- `struct in6_addr`. -/
abbrev Ip6 := Vector UInt8 16

/-- `struct token_bucket`. -/
structure TokenBucket where
  lastTime : UInt64
  tokens : Int64
deriving DecidableEq

/-- `MAX_ENTRIES`, of the IPv4 maps. -/
def MAX_ENTRIES : ℕ := 65536

/-- `MAX_ENTRIES_V6`, of the IPv6 maps. -/
def MAX_ENTRIES_V6 : ℕ := 16384

/-- The maps of one address family. `meterMap` and `rateMap` are LRU maps. -/
structure IpMaps (α : Type) (maxEntries maxAllow : ℕ) where
  blacklistMap : BpfHash α UInt32 maxEntries
  meterMap : Dict α UInt32
  allowlistMap : BpfHash α UInt32 maxAllow
  rateMap : Dict α TokenBucket
deriving DecidableEq

/-- The maps of a family as the loader creates them. -/
def IpMaps.empty {α : Type} {n m : ℕ} : IpMaps α n m :=
  ⟨BpfHash.empty, Dict.empty, BpfHash.empty, Dict.empty⟩

/-- `struct attack_event`. -/
structure AttackEvent where
  af : UInt8
  reason : UInt8
  pad : UInt16
  srcV4 : UInt32
  srcV6 : Ip6
  timestamp : UInt64
deriving DecidableEq

/-- The state the filter reads and writes. `eventRingbuf` holds the records
submitted so far, oldest first. -/
structure Kernel where
  v4 : IpMaps Ip4 MAX_ENTRIES 1024
  v6 : IpMaps Ip6 MAX_ENTRIES_V6 256
  globalCounterMap : List UInt64
  globalRateMap : TokenBucket
  protoFilterMap : BpfHash UInt8 UInt32 256
  eventRingbuf : List AttackEvent
deriving DecidableEq

/-- The maps as the loader creates them on a host with `cpus` CPUs. -/
def Kernel.init (cpus : ℕ) : Kernel where
  v4 := IpMaps.empty
  v6 := IpMaps.empty
  globalCounterMap := List.replicate cpus 0
  globalRateMap := ⟨0, 0⟩
  protoFilterMap := BpfHash.empty
  eventRingbuf := []

end FluxGuard
