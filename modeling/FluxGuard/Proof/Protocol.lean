import FluxGuard.Model.Protocol
import FluxGuard.Proof.View

/-!
# What a protocol rule drops

* `rule_iff`: a rule drops the protocol that was asked for and no other if the number is a
  protocol number. Any other integer is taken modulo 256 instead of being rejected.
* `extension_iff`: of the packets that end in a dropped protocol, those behind extension headers
  get past the rule unless their first extension header has one of its own.
-/

namespace FluxGuard

/-! ## Rules from userspace -/

/-- A map with room for every key takes every key. -/
theorem isSome_updateElem_u8 (m : BpfHash UInt8 UInt32 256) (p : UInt8) (v : UInt32) :
    (m.updateElem p v).isSome = true := by
  unfold BpfHash.updateElem
  by_cases hp : p ∈ m.entries
  · rw [dif_pos hp]
    rfl
  · have hroom : m.entries.size < 256 := by
      have hnodup : ((p :: m.entries.keys).map UInt8.toFin).Nodup := by
        refine List.Nodup.map UInt8.toFin_injective ?_
        exact List.nodup_cons.2 ⟨hp, m.entries.nodup⟩
      have hlen := hnodup.length_le_card
      rw [List.length_map, List.length_cons, ← Dict.size_eq_keys, Fintype.card_fin] at hlen
      exact hlen
    rw [dif_neg hp, dif_pos hroom]
    rfl

/-- **What the call does, for every integer**: it goes through, and one number more is dropped, which is the
one asked for modulo 256. -/
theorem setProtoFilter_spec (k : Kernel) (proto : ℤ) :
    (setProtoFilter k proto 1).2 = true ∧
      ∀ p, (setProtoFilter k proto 1).1.filters p = (k.filters p || decide (p = UInt8.ofInt proto)) := by
  obtain ⟨m, hm⟩ :=
    Option.isSome_iff_exists.1 (isSome_updateElem_u8 k.protoFilterMap (UInt8.ofInt proto) (UInt32.ofInt 1))
  have hset : setProtoFilter k proto 1 = ({ k with protoFilterMap := m }, true) := by
    unfold setProtoFilter
    rw [hm]
  have hentries : m.entries = k.protoFilterMap.entries.set (UInt8.ofInt proto) 1 := by
    unfold BpfHash.updateElem at hm
    split at hm
    · cases hm
      rfl
    · split at hm
      · cases hm
        rfl
      · cases hm
  refine ⟨by rw [hset], ?_⟩
  intro p
  rw [hset]
  unfold Kernel.filters BpfHash.lookupElem
  rw [hentries]
  by_cases hp : p = UInt8.ofInt proto
  · rw [hp, Dict.get?_set_self]
    simp
  · rw [Dict.get?_set_ne _ _ hp]
    simp [hp]

/-- The call is the system call that the runs of the filter have as an event. -/
theorem setProtoFilter_step (k : Kernel) (proto action : ℤ) :
    (setProtoFilter k proto action).1 = k.step (.protoSet (UInt8.ofInt proto) (UInt32.ofInt action)) := by
  show _ = { k with protoFilterMap := k.protoFilterMap.update (UInt8.ofInt proto) (UInt32.ofInt action) }
  unfold setProtoFilter BpfHash.update
  cases k.protoFilterMap.updateElem (UInt8.ofInt proto) (UInt32.ofInt action) with
  | none => rfl
  | some m => rfl

/-- `monitor` reports the number it was given, whatever number is dropped. -/
theorem applyDropProto_line (k : Kernel) (proto : ℤ) :
    applyDropProto true k (some proto) = ((setProtoFilter k proto 1).1, some (.set proto)) := by
  have hok := (setProtoFilter_spec k proto).1
  show ((setProtoFilter k proto 1).1,
    some (if (setProtoFilter k proto 1).2 then RuleLine.set proto else RuleLine.warning)) = _
  rw [if_pos hok]

/-- A protocol rule hits only the requested protocol: a protocol number is added to the dropped ones, anything
else is rejected. -/
def HitsOnly (k : Kernel) (proto : ℤ) : Prop :=
  if 0 ≤ proto ∧ proto ≤ 255 then
    (setProtoFilter k proto 1).2 = true ∧ (setProtoFilter k proto 1).1.dropped = insert proto k.dropped
  else (setProtoFilter k proto 1).2 = false ∧ (setProtoFilter k proto 1).1.dropped = k.dropped

theorem toNat_ofInt {n : ℤ} (h₀ : 0 ≤ n) (h₁ : n ≤ 255) : ((UInt8.ofInt n).toNat : ℤ) = n := by
  unfold UInt8.ofInt
  rw [UInt8.toNat_ofNat']
  omega

/-- **A rule hits only the requested protocol** if and only if the request is a protocol number. -/
theorem rule_iff (k : Kernel) (proto : ℤ) : HitsOnly k proto ↔ 0 ≤ proto ∧ proto ≤ 255 := by
  obtain ⟨hok, hfilters⟩ := setProtoFilter_spec k proto
  unfold HitsOnly
  by_cases hrange : 0 ≤ proto ∧ proto ≤ 255
  · rw [if_pos hrange]
    have hnum := toNat_ofInt hrange.1 hrange.2
    refine ⟨fun _ => hrange, fun _ => ⟨hok, ?_⟩⟩
    ext n
    constructor
    · rintro ⟨p, hp, rfl⟩
      rw [hfilters, Bool.or_eq_true, decide_eq_true_iff] at hp
      rcases hp with hp | rfl
      · exact Or.inr ⟨p, hp, rfl⟩
      · exact Or.inl hnum
    · rintro (rfl | ⟨p, hp, rfl⟩)
      · exact ⟨UInt8.ofInt n, by rw [hfilters]; simp, hnum⟩
      · exact ⟨p, by rw [hfilters, hp]; rfl, rfl⟩
  · rw [if_neg hrange]
    constructor
    · rintro ⟨hrejected, -⟩
      rw [hok] at hrejected
      cases hrejected
    · intro h
      exact absurd h hrange

/-- Protocol 273: the call goes through, `monitor` says that 273 is dropped, and UDP is. -/
theorem rule_aliases : ¬ (∀ (k : Kernel) (proto : ℤ), HitsOnly k proto) ∧
    (applyDropProto true (Kernel.init 1) (some 273)).2 = some (.set 273) ∧
    (applyDropProto true (Kernel.init 1) (some 273)).1.filters 17 = true := by
  refine ⟨?_, by decide, by decide⟩
  intro h
  have hrejected := h (Kernel.init 1) 273
  unfold HitsOnly at hrejected
  rw [if_neg (by decide)] at hrejected
  exact absurd hrejected.1 (by decide)

/-! ## Extension headers -/

/-- A header chain without extension headers is its upper-layer protocol. -/
theorem EndsIn.of_upper {data : List UInt8} {kind p : UInt8} {i : ℕ} (h : EndsIn data kind i p)
    (hkind : isExtension kind = false) :
    kind = p := by
  cases h with
  | upper _ => rfl
  | extension h _ _ =>
    rw [hkind] at h
    cases h

/-- **When a packet of a source that is not allowlisted is dropped**: by the global bucket, a rule for the number
in the fixed header, the blacklist, or its own bucket. -/
theorem Kernel.verdict_drop_iff (k : Kernel) (now : UInt64) (host : Host) {data : List UInt8} {s : Source}
    (hs : sourceOf data = some s) (ha : (k.view s).allowed = false) :
    k.verdict (.frame now host data) = some .drop ↔
      k.overloaded now = true ∨ k.filters (protoOf data s) = true ∨ (k.view s).listed = true ∨
        ∃ tb, (k.view s).bucket = some tb ∧ (tokenBucketCheck tb now).2 = true := by
  rw [Kernel.verdict_packet k now host hs]
  unfold View.stage
  rw [ha]
  cases k.overloaded now with
  | true => simp
  | false =>
    cases k.filters (protoOf data s) with
    | true => simp [Stage.verdict]
    | false =>
      cases (k.view s).listed with
      | true => simp [Stage.verdict]
      | false =>
        unfold bucketStage
        cases (k.view s).bucket with
        | none => simp [Stage.verdict]
        | some tb => cases hd : (tokenBucketCheck tb now).2 <;> simp [Stage.verdict, hd]

/-- **Protocol rules and extension headers.** Let a rule drop protocol `p`. A complete IPv6 packet from a source that
is not allowlisted, whose header chain ends in `p`, is dropped if and only if it has no extension header, or the
number of the first one has a rule itself, or the packet is dropped for another reason: the global bucket, the
blacklist or the source's bucket. An IPv4 packet of protocol `p` always is. -/
theorem extension_iff (k : Kernel) {p : UInt8} (hp : k.filters p = true) (now : UInt64) (host : Host)
    {data : List UInt8}
    {a : Ip6} (hs : sourceOf data = some (.v6 a)) (ha : (k.view (.v6 a)).allowed = false)
    (hend : EndsIn data (nexthdr data) (14 + 40) p) :
    (k.verdict (.frame now host data) = some .drop ↔
      isExtension (nexthdr data) = false ∨ k.filters (nexthdr data) = true ∨ k.overloaded now = true ∨
        (k.view (.v6 a)).listed = true ∨ ∃ tb, (k.view (.v6 a)).bucket = some tb ∧ (tokenBucketCheck tb now).2 = true) ∧
    ∀ (now : UInt64) (host : Host) (data : List UInt8) (b : Ip4), sourceOf data = some (.v4 b) →
      (k.view (.v4 b)).allowed = false → protocol data = p → k.verdict (.frame now host data) = some .drop := by
  constructor
  · rw [Kernel.verdict_drop_iff k now host hs ha]
    show k.overloaded now = true ∨ k.filters (nexthdr data) = true ∨ _ ↔ _
    constructor
    · rintro (ho | hf | hrest)
      · exact Or.inr (Or.inr (Or.inl ho))
      · exact Or.inr (Or.inl hf)
      · exact Or.inr (Or.inr (Or.inr hrest))
    · rintro (hext | hf | ho | hrest)
      -- without extension headers the fixed header names `p` itself
      · rw [hend.of_upper hext]
        exact Or.inr (Or.inl hp)
      · exact Or.inr (Or.inl hf)
      · exact Or.inl ho
      · exact Or.inr (Or.inr hrest)
  · intro now host data b hs ha hproto
    rw [Kernel.verdict_drop_iff k now host hs ha]
    refine Or.inr (Or.inl ?_)
    show k.filters (protocol data) = true
    rw [hproto]
    exact hp

/-- A complete UDP packet from `2001:db8::1`, with these bytes of extension headers in front of the UDP header. -/
def udp6 (nexthdr : UInt8) (front : List UInt8) : List UInt8 :=
  List.replicate 12 0 ++ [0x86, 0xDD] ++ [0x60, 0, 0, 0, 0, UInt8.ofNat (front.length + 8), nexthdr, 64] ++
    [0x20, 0x01, 0x0D, 0xB8, 0, 0, 0, 0, 0, 0, 0, 0, 0, 0, 0, 1] ++ List.replicate 16 0 ++
    front ++ [0x30, 0x39, 0, 53, 0, 8, 0, 0]

/-- A Hop-by-Hop header of eight bytes, padding only, with UDP behind it. -/
def hopByHop : List UInt8 := [17, 0, 1, 4, 0, 0, 0, 0]

/-- `2001:db8::1`. -/
def documented : Ip6 := #v[0x20, 0x01, 0x0D, 0xB8, 0, 0, 0, 0, 0, 0, 0, 0, 0, 0, 0, 1]

theorem sourceOf_udp6 : sourceOf (udp6 17 []) = some (.v6 documented) ∧
    sourceOf (udp6 0 hopByHop) = some (.v6 documented) := by
  decide

/-- The rule against UDP, right after the start. -/
def noUdp : List Event := [.protoSet 17 1]

theorem endsIn_hopByHop : EndsIn (udp6 0 hopByHop) (nexthdr (udp6 0 hopByHop)) (14 + 40) 17 :=
  .extension (by decide) (by decide) (.upper (by decide))

/-- Plain UDP is dropped, and UDP behind one Hop-by-Hop header is not: number 0 has no rule, and nothing else
drops the packet. -/
theorem extension_iff_udp :
    (run (Kernel.init 1) noUdp).verdict (.frame 200000000 quiet (udp6 17 [])) = some .drop ∧
      (run (Kernel.init 1) noUdp).verdict (.frame 200000000 quiet (udp6 0 hopByHop)) ≠ some .drop := by
  constructor
  · exact (extension_iff (run (Kernel.init 1) noUdp) (p := 17) (by decide) 200000000 quiet sourceOf_udp6.1 (by decide)
      (.upper (by decide))).1.2 (Or.inl (by decide))
  · intro hdrop
    rcases (extension_iff (run (Kernel.init 1) noUdp) (p := 17) (by decide) 200000000 quiet sourceOf_udp6.2 (by decide)
      endsIn_hopByHop).1.1 hdrop with hext | hrule | hover | hlisted | ⟨tb, hbucket, -⟩
    · exact absurd hext (by decide)
    · exact absurd hrule (by decide)
    · exact absurd hover (by decide)
    · exact absurd hlisted (by decide)
    · have hnone : ((run (Kernel.init 1) noUdp).view (.v6 documented)).bucket = none := rfl
      rw [hnone] at hbucket
      cases hbucket

/-- **UDP behind one Hop-by-Hop header gets past the rule.** -/
theorem extension_evades :
    ¬ ∀ (cpus : ℕ) (es : List Event) (p : UInt8) (now : UInt64) (host : Host) (data : List UInt8) (a : Ip6),
      (run (Kernel.init cpus) es).filters p = true → sourceOf data = some (.v6 a) →
      ((run (Kernel.init cpus) es).view (.v6 a)).allowed = false → EndsIn data (nexthdr data) (14 + 40) p →
      (run (Kernel.init cpus) es).verdict (.frame now host data) = some .drop := by
  intro h
  have hdrop :=
    h 1 noUdp 17 200000000 quiet (udp6 0 hopByHop) documented (by decide) sourceOf_udp6.2 (by decide) endsIn_hopByHop
  exact absurd hdrop (by decide)

end FluxGuard
