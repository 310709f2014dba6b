import FluxGuard.Proof.Dump
import FluxGuard.Proof.Robust
import FluxGuard.Proof.View

/-!
# One address in two views

The filter copies a source's bytes into its blacklist and into its event. A dump prints the bytes of
the key in order. The dashboard loads the event's IPv4 address as a little-endian word and packs it
big-endian, so it prints the bytes backwards.

* `same_address_iff`: **the two texts agree for every IPv6 source, and for an IPv4 source exactly when
  its bytes read the same backwards.**
-/

namespace FluxGuard

/-! ## What the kernel submits -/

/-- The packet whose event is submitted, and the event. -/
theorem submitted_cases {k : Kernel} {now : UInt64} {host : Host} {data : List UInt8} {ev : AttackEvent}
    (h : (fluxguardFilter k now host data).1.eventRingbuf = k.eventRingbuf ++ [ev]) :
    (∃ a r, sourceOf data = some (.v4 a) ∧ ev = writeEvent4 a now r) ∨
      ∃ a r, sourceOf data = some (.v6 a) ∧ ev = writeEvent6 a now r := by
  have hself : k.eventRingbuf ≠ k.eventRingbuf ++ [ev] := by simp
  have hwrite : ∀ {st : Stage} {write : AttackEvent → AttackEvent}, emitted host write st = [ev] →
      ∃ r, ev = write r := by
    intro st write hst
    cases st with
    | allowed | filtered | blacklisted | fresh | admitted => cases hst
    | exhausted =>
      unfold emitted at hst
      cases hr : host.reserve with
      | none =>
        rw [hr] at hst
        cases hst
      | some r =>
        rw [hr] at hst
        exact ⟨r, (List.head_eq_of_cons_eq hst).symm⟩
  rw [fluxguardFilter_eq] at h
  split at h
  · exact absurd h hself
  · rename_i hl
    split at h
    · exact absurd h hself
    · cases hs : sourceOf data with
      | none =>
        rw [dispatch_none _ now host hl hs] at h
        exact absurd h hself
      | some s =>
        cases s with
        | v4 a =>
          rw [dispatch_v4 _ now host hs, ipv4Path_eq _ now host a _ rfl] at h
          obtain ⟨r, hr⟩ := hwrite (List.append_cancel_left h)
          exact Or.inl ⟨a, r, rfl, hr⟩
        | v6 a =>
          rw [dispatch_v6 _ now host hs, ipv6Path_eq _ now host a _ rfl] at h
          obtain ⟨r, hr⟩ := hwrite (List.append_cancel_left h)
          exact Or.inr ⟨a, r, rfl, hr⟩

/-! ## What the dashboard shows -/

theorem shown_v4 (a : Ip4) (now : UInt64) (r : AttackEvent) :
    (writeEvent4 a now r).shown = ipv4Str a.bytes.reverse := rfl

theorem shown_v6 (a : Ip6) (now : UInt64) (r : AttackEvent) : (writeEvent6 a now r).shown = keyToIpV6 a := rfl

theorem length_bytes (a : Ip4) : a.bytes.length = 4 := length_leBytes 4 _

/-- The text of the bytes backwards is the address's only for bytes that read the same backwards. -/
theorem reversed_eq_iff (a : Ip4) : ipv4Str a.bytes.reverse = keyToIp a ↔ a.bytes.reverse = a.bytes := by
  constructor
  · intro h
    have hpacked := @ipv4Packed_ipv4Str a.bytes.reverse (by rw [List.length_reverse, length_bytes])
    rw [h] at hpacked
    have hown := ipv4Packed_ipv4Str (length_bytes a)
    exact Option.some.inj (hpacked.symm.trans hown)
  · intro h
    rw [h]
    rfl

/-- A tuple that the loop appends on its way is returned. -/
theorem Visits.mem {buf : Mmap} {dataOffset rbSize prod cons p size y : ℕ} {e : RbEvent} {events evs : List RbEvent}
    (hv : Visits buf dataOffset rbSize prod cons p) (hr : readRecord buf dataOffset rbSize p = .advance size (some e))
    (hf : Final buf dataOffset rbSize prod cons events evs y) : e ∈ evs := by
  induction hv generalizing events with
  | here hlt => exact (hf.of_advance hlt hr).subset e (List.mem_append_right _ (List.mem_singleton_self e))
  | on hlt hr' _ ih => exact ih hr (hf.of_advance hlt hr')

/-- A call returns `events`, and its loop reads record `i`. -/
structure Reads (m : Mapping) (c : ℕ) (recs : List Record) (i : ℕ) (events : List RbEvent) (buf : Mmap) : Prop where
  placed : Placed m c recs buf
  aligned : c % 8 = 0
  no_overflow : c + RECORD * recs.length < 2 ^ 64
  room : RECORD * recs.length ≤ RINGBUF_DEFAULT_SIZE
  fits : Fits m (c + RECORD * i)
  visits : Visits buf m.dataOffset RINGBUF_DEFAULT_SIZE (c + RECORD * recs.length) c (c + RECORD * i)
  drains : ∃ buf', drainRingbuf m.pageSize buf m.dataOffset RINGBUF_DEFAULT_SIZE = some (events, buf')

/-- The tuple that it returns for the record. -/
theorem Reads.tuple {m : Mapping} {c : ℕ} {recs : List Record} {i : ℕ} {events : List RbEvent} {buf : Mmap}
    (h : Reads m c recs i events buf) (hi : i < recs.length) :
    ∃ e ∈ events, readRecord buf m.dataOffset RINGBUF_DEFAULT_SIZE (c + RECORD * i) = .advance 32 (some e) ∧
      e.1 = recs[i].event.shown := by
  have hread := h.placed.read h.aligned hi h.fits
  have hsize := h.placed.mapped.size_ge
  have hd := m.dataOffset_ge
  obtain ⟨buf', hdrain⟩ := h.drains
  rw [h.placed.drainRingbuf_eq h.no_overflow h.room] at hdrain
  obtain ⟨y, -, hfinal, -⟩ := final_of_loopAt hd (by omega) _ rfl (by have := h.no_overflow; omega) hdrain
  exact ⟨_, h.visits.mem hread hfinal, hread, rfl⟩

/-! ## What a dump shows -/

/-- A dump that has ended shows the entry of `a` as `t`. -/
def Dump.Shows {α : Type} (s : Dump.State α) (entries : Dict α UInt32) (a : α) (t : Text) : Prop :=
  ∃ (res : Dict Text UInt32) (i : ℕ) (v : UInt32), s = .returned res ∧ entries.items[i]? = some (a, v) ∧
    res.items[i]? = some (t, v)

/-- A whole dump shows an entry as its text. -/
theorem Dump.State.Whole.shows_iff {α : Type} {text : α → Text} {entries : Dict α UInt32} {s : Dump.State α}
    (h : s.Whole text entries)
    {a : α} (ha : a ∈ entries) (t : Text) : Dump.Shows s entries a t ↔ t = text a := by
  obtain ⟨res, rfl, hres⟩ := h
  constructor
  · rintro ⟨res', i, v, hs, hi, ht⟩
    cases hs
    rw [hres, List.getElem?_map, hi] at ht
    exact (congrArg Prod.fst (Option.some.inj ht)).symm
  · rintro rfl
    obtain ⟨p, hp, rfl⟩ := List.mem_map.1 ha
    obtain ⟨i, hi⟩ := List.mem_iff_getElem?.1 hp
    refine ⟨res, i, p.2, rfl, hi, ?_⟩
    rw [hres, List.getElem?_map, hi, Option.map_some]

/-- The dump of an IPv4 blacklist shows the entry of `a` as `t`. -/
def Kernel.Shows4 (k : Kernel) (a : Ip4) (t : Text) : Prop :=
  Dump.Shows (Dump.dumpMapU32 (Dump.frozen k.v4.blacklistMap.entries fun _ => none) 0
    (2 * k.v4.blacklistMap.entries.size + 1)).2
    k.v4.blacklistMap.entries a t

/-- A dump of the IPv6 blacklist shows the address as this text. -/
def Kernel.Shows6 (k : Kernel) (a : Ip6) (t : Text) : Prop :=
  Dump.Shows (Dump.dumpMapU32V6 (Dump.frozen k.v6.blacklistMap.entries fun _ => none) 0
    (2 * k.v6.blacklistMap.entries.size + 1)).2
    k.v6.blacklistMap.entries a t

/-- The dump of an IPv4 block shows its address. -/
theorem Kernel.shows4_iff {k : Kernel} {a : Ip4} (ha : a ∈ k.v4.blacklistMap) (t : Text) :
    k.Shows4 a t ↔ t = keyToIp a :=
  Dump.State.Whole.shows_iff
    ((Dump.outcome_iff keyToIp_injective 0 _ (fun _ => none) fun _ _ h => nomatch h).2.2 ⟨rfl, fun _ _ _ => rfl⟩) ha t

/-- So does that of an IPv6 block. -/
theorem Kernel.shows6_iff {k : Kernel} {a : Ip6} (ha : a ∈ k.v6.blacklistMap) (t : Text) :
    k.Shows6 a t ↔ t = keyToIpV6 a :=
  Dump.State.Whole.shows_iff
    ((Dump.outcome_iff keyToIpV6_injective _ _ (fun _ => none) fun _ _ h => nomatch h).2.2 ⟨rfl, fun _ _ _ => rfl⟩) ha t

/-- **When the two views agree** on the source of a packet whose event the kernel submits: for every IPv6
source, and for an IPv4 source exactly when its bytes read the same backwards. -/
theorem same_address_iff {k : Kernel} {now : UInt64} {host : Host} {data : List UInt8} {ev : AttackEvent}
    (hev : (fluxguardFilter k now host data).1.eventRingbuf = k.eventRingbuf ++ [ev])
    {m : Mapping} {c : ℕ} {recs : List Record} {i : ℕ} {events : List RbEvent} {buf : Mmap}
    (h : Reads m c recs i events buf) (hi : i < recs.length) (hrec : recs[i].event = ev) :
    ∃ e ∈ events, readRecord buf m.dataOffset RINGBUF_DEFAULT_SIZE (c + RECORD * i) = .advance 32 (some e) ∧
      (∀ a, sourceOf data = some (.v4 a) → a ∈ (fluxguardFilter k now host data).1.v4.blacklistMap →
        ((fluxguardFilter k now host data).1.Shows4 a e.1 ↔ a.bytes.reverse = a.bytes)) ∧
      ∀ a, sourceOf data = some (.v6 a) → a ∈ (fluxguardFilter k now host data).1.v6.blacklistMap →
        (fluxguardFilter k now host data).1.Shows6 a e.1 := by
  obtain ⟨e, he, hread, hshown⟩ := h.tuple hi
  refine ⟨e, he, hread, ?_, ?_⟩
  · intro a hs ha
    rw [Kernel.shows4_iff ha, hshown, hrec]
    rcases submitted_cases hev with ⟨a', r, hs', rfl⟩ | ⟨a', r, hs', rfl⟩
    · cases hs.symm.trans hs'
      rw [shown_v4]
      exact reversed_eq_iff a
    · cases hs.symm.trans hs'
  · intro a hs ha
    rw [Kernel.shows6_iff ha, hshown, hrec]
    rcases submitted_cases hev with ⟨a', r, hs', rfl⟩ | ⟨a', r, hs', rfl⟩
    · cases hs.symm.trans hs'
    · cases hs.symm.trans hs'
      exact shown_v6 a now r

/-! ## A reversed address -/

/-- The filter's state in which 10.0.1.5 has used its tokens up. -/
def exhausted : Kernel :=
  { Kernel.init 1 with
    v4 := { (IpMaps.empty : IpMaps Ip4 MAX_ENTRIES 1024) with rateMap := ⟨[(0x0501000A, ⟨0, 0⟩)], by decide⟩ }
    globalRateMap := ⟨0, 1000⟩ }

/-- A packet for which a record is reserved. -/
def reserving : Host := ⟨0, true, true, some ⟨0, 0, 0, 0, Vector.replicate 16 0, 0⟩⟩

/-- The event of that packet. -/
def victimEvent : AttackEvent := ⟨4, 1, 0, 0x0501000A, Vector.replicate 16 0, 0⟩

theorem submits_victimEvent :
    (fluxguardFilter exhausted 0 reserving (ip4Frame 10 0 1 5 6)).1.eventRingbuf = exhausted.eventRingbuf ++
      [victimEvent] := by
  decide

theorem blacklists_victim :
    (fluxguardFilter exhausted 0 reserving (ip4Frame 10 0 1 5 6)).1.v4.blacklistMap.entries.items =
      [(0x0501000A, 1)] := by
  decide

/-- The ring with that event's record. -/
def victimRing : Mmap := fillRing doubleMapping 0 [⟨0, victimEvent⟩]

/-- A call returns the record's tuple, and one for the last eight bytes of the record. -/
theorem reads_victimRing :
    ∃ e, Reads doubleMapping 0 [⟨0, victimEvent⟩] 0 [("5.1.0.10".toList, 1, 0), e] victimRing := by
  have hplaced : Placed doubleMapping 0 [⟨0, victimEvent⟩] victimRing := placed_fillRing (by decide) (by decide)
  have hread : readRecord victimRing doubleMapping.dataOffset RINGBUF_DEFAULT_SIZE 0 =
      .advance 32 (some (victimEvent.shown, 1, 0)) := hplaced.read rfl (i := 0) (by decide) (Or.inl rfl)
  rw [show victimEvent.shown = "5.1.0.10".toList by decide] at hread
  obtain ⟨e, hrest⟩ : ∃ e, readRecord victimRing doubleMapping.dataOffset RINGBUF_DEFAULT_SIZE 32 =
      .advance 8 (some e) := ⟨_, rfl⟩
  refine ⟨e, hplaced, rfl, by decide, by decide, Or.inl rfl, .here (by decide), victimRing.setCons 40, ?_⟩
  have hloop : drainRingbuf doubleMapping.pageSize victimRing doubleMapping.dataOffset RINGBUF_DEFAULT_SIZE =
      loopAt victimRing doubleMapping.dataOffset RINGBUF_DEFAULT_SIZE 40 0 [] :=
        hplaced.drainRingbuf_eq (by decide) (by decide)
  rw [hloop, loopAt_advance (by decide) (by decide) (by decide) hread, if_pos (by decide),
    loopAt_advance (by decide) (by decide) (by decide) hrest, if_pos (by decide), loopAt_done (by decide)]
  rfl

theorem victim_blacklisted :
    0x0501000A ∈ (fluxguardFilter exhausted 0 reserving (ip4Frame 10 0 1 5 6)).1.v4.blacklistMap := by
  rw [BpfHash.mem_iff, Dict.mem_def, blacklists_victim]
  exact List.mem_singleton_self _

/-- The packet of 10.0.1.5: no dump shows its entry as the dashboard shows its event. -/
theorem same_address_iff_victim :
    ∃ events : List RbEvent, ∃ e ∈ events, readRecord victimRing doubleMapping.dataOffset RINGBUF_DEFAULT_SIZE 0 =
      .advance 32 (some e) ∧
      ¬ (fluxguardFilter exhausted 0 reserving (ip4Frame 10 0 1 5 6)).1.Shows4 0x0501000A e.1 := by
  obtain ⟨e', hreads⟩ := reads_victimRing
  obtain ⟨e, he, hread, hv4, -⟩ := same_address_iff submits_victimEvent hreads (by decide) rfl
  refine ⟨_, e, he, hread, fun h => ?_⟩
  exact absurd ((hv4 0x0501000A (by decide) victim_blacklisted).1 h) (by decide)

/-- **The dashboard shows 10.0.1.5 as 5.1.0.10**, the dump of the blacklist as 10.0.1.5. -/
theorem reversed_address :
    (∃ e, Reads doubleMapping 0 [⟨0, victimEvent⟩] 0 [("5.1.0.10".toList, 1, 0), e] victimRing) ∧
      (fluxguardFilter exhausted 0 reserving (ip4Frame 10 0 1 5 6)).1.Shows4 0x0501000A "10.0.1.5".toList := by
  refine ⟨reads_victimRing, (Kernel.shows4_iff victim_blacklisted _).2 ?_⟩
  decide

end FluxGuard
