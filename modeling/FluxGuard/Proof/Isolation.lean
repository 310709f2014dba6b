import FluxGuard.Proof.Agree

/-!
# Source isolation

`alone s k es` is the run `es` without the rest of the world: the packets of `s` that the
global bucket lets through, the map operations on `s`, and the protocol filter's.

* `source_isolation`: replayed alone, and with the global bucket out of the way, `s` gets the
  verdicts and the map entries it gets in the full run.
* `alone_starves`: the global bucket itself is shared. A packet that it lets through because
  of another source's traffic can be dropped in the replay.
-/

namespace FluxGuard

/-- A packet of `s` that the global bucket lets through. -/
def Kernel.sees (k : Kernel) (s : Source) : Event → Bool
  | .frame now _ data => decide (sourceOf data = some s) && !k.overloaded now
  | _ => false

/-- A map operation on an entry of `s`, or on the protocol filter. -/
def Event.concerns (s : Source) : Event → Bool
  | .frame .. => false
  | .v4 op => decide (s = .v4 op.key)
  | .v6 op => decide (s = .v6 op.key)
  | .protoSet .. | .protoDel .. => true

/-- The events of a run that are left of it for `s`. -/
def alone (s : Source) (k : Kernel) : List Event → List Event
  | [] => []
  | e :: es =>
    if k.sees s e || e.concerns s then e :: alone s (k.step e) es else alone s (k.step e) es

/-- The verdicts of a run on the packets of `s` that the global bucket lets through. -/
def seenVerdicts (s : Source) (k : Kernel) : List Event → List Xdp
  | [] => []
  | e :: es =>
    if k.sees s e then (k.verdict e).toList ++ seenVerdicts s (k.step e) es
    else seenVerdicts s (k.step e) es

/-- The verdicts of a run. -/
def verdicts (k : Kernel) : List Event → List Xdp
  | [] => []
  | e :: es => (k.verdict e).toList ++ verdicts (k.step e) es

/-- The global bucket drops no frame of a run. -/
def Unthrottled (k : Kernel) : List Event → Prop
  | [] => True
  | e :: es => (∀ now ∈ e.now, k.overloaded now = false) ∧ Unthrottled (k.step e) es

/-- The maps hold the same entries for `s`. -/
def Kernel.Agree (k k' : Kernel) : Source → Prop
  | .v4 a => k.v4.Agree a k'.v4 a
  | .v6 a => k.v6.Agree a k'.v6 a

/-! ## The replay's maps -/

/-- The hash maps of a family have an entry for `a` at most. -/
structure IpMaps.Only {α : Type} [DecidableEq α] {n m : ℕ} (maps : IpMaps α n m) (a : α) : Prop where
  blacklist : ∀ b ∈ maps.blacklistMap, b = a
  allowlist : ∀ b ∈ maps.allowlistMap, b = a

/-- No other source of the family is in its maps. -/
def Kernel.Only (k : Kernel) : Source → Prop
  | .v4 a => k.v4.Only a
  | .v6 a => k.v6.Only a

/-- A dict with one key at most has at most one entry. -/
theorem Dict.size_le_one {α β : Type} [DecidableEq α] {d : Dict α β} {a : α} (h : ∀ b ∈ d, b = a) : d.size ≤ 1 := by
  have hsub : d.keys ⊆ [a] := fun b hb => List.mem_singleton.2 (h b hb)
  have hperm := List.subperm_of_subset d.nodup hsub
  rw [Dict.size_eq_keys]
  exact hperm.length_le

namespace IpMaps.Only

variable {α : Type} [DecidableEq α] {n m : ℕ} {maps : IpMaps α n m} {a : α}

/-- Such maps have room. -/
theorem roomy (h : maps.Only a) (hn : 1 < n) (hm : 1 < m) : maps.Roomy :=
  ⟨(Dict.size_le_one h.blacklist).trans_lt hn, (Dict.size_le_one h.allowlist).trans_lt hm⟩

/-- A packet of the source keeps the maps to it alone. -/
theorem packet (h : maps.Only a) (now : UInt64) (host : Host) (st : Stage) : (maps.packet now host a st).Only a := by
  cases st with
  | exhausted =>
    refine ⟨?_, h.allowlist⟩
    intro b hb
    rcases BpfHash.mem_update.1 hb with hb | ⟨hb, -⟩
    · exact h.blacklist b hb
    · exact hb
  | allowed => exact h
  | filtered => exact h
  | blacklisted => exact ⟨h.blacklist, h.allowlist⟩
  | fresh => exact ⟨h.blacklist, h.allowlist⟩
  | admitted => exact ⟨h.blacklist, h.allowlist⟩

/-- So does an operation on it. -/
theorem apply {op : MapOp α} (h : maps.Only op.key) : (maps.apply op).Only op.key := by
  cases op with
  | allow c v =>
    refine ⟨h.blacklist, ?_⟩
    intro b hb
    rcases BpfHash.mem_update.1 hb with hb | ⟨hb, -⟩
    · exact h.allowlist b hb
    · exact hb
  | disallow c => exact ⟨h.blacklist, fun b hb => h.allowlist b (BpfHash.mem_delete.1 hb).2⟩
  | blacklist c v =>
    refine ⟨?_, h.allowlist⟩
    intro b hb
    rcases BpfHash.mem_update.1 hb with hb | ⟨hb, -⟩
    · exact h.blacklist b hb
    · exact hb
  | unblacklist c => exact ⟨fun b hb => h.blacklist b (BpfHash.mem_delete.1 hb).2, h.allowlist⟩
  | evictMeter c => exact ⟨h.blacklist, h.allowlist⟩
  | evictRate c => exact ⟨h.blacklist, h.allowlist⟩

end IpMaps.Only

/-! ## The full run beside the replay -/

/-- The replay `k'` of `s` has got as far as the full run `k`. -/
structure Kernel.Follows (k k' : Kernel) (s : Source) : Prop where
  agree : k.Agree k' s
  only : k'.Only s
  protoFilter : k'.protoFilterMap = k.protoFilterMap

namespace Kernel.Follows

variable {k k' : Kernel} {s : Source}

/-- The two kernels filter the same protocols. -/
theorem filters (h : k.Follows k' s) (p : UInt8) : k'.filters p = k.filters p := by
  unfold Kernel.filters
  rw [h.protoFilter]

/-- What another source's packet or map operation does is not seen in the replay. -/
theorem other (h : k.Follows k' s) {e : Event} (ha : k.sees s e = false) (hc : e.concerns s = false) :
    (k.step e).Follows k' s := by
  cases e with
  | frame now host data =>
    -- a frame without a source, or dropped before its source is looked at, changes no map
    by_cases hun : sourceOf data = none ∨ k.overloaded now = true
    · obtain ⟨h4, h6, hp⟩ := step_unseen k now host hun
      refine ⟨?_, h.only, h.protoFilter.trans hp.symm⟩
      have hagree := h.agree
      cases s with
      | v4 a => rw [Kernel.Agree, h4]; exact hagree
      | v6 a => rw [Kernel.Agree, h6]; exact hagree
    · rw [not_or, Bool.not_eq_true] at hun
      obtain ⟨hsrc, ho⟩ := hun
      obtain ⟨src, hsrc⟩ := Option.ne_none_iff_exists'.1 hsrc
      -- any other frame that `s` does not see is of another source
      have hne : src ≠ s := by
        rintro rfl
        simp [Kernel.sees, hsrc, ho] at ha
      have hagree := h.agree
      cases src with
      | v4 c =>
        rw [Kernel.step, step_packet4 k now host hsrc ho]
        refine ⟨?_, h.only, h.protoFilter⟩
        cases s with
        | v4 a => exact IpMaps.Agree.packet_of_ne hagree (fun he => hne (by rw [he])) now host _
        | v6 a => exact hagree
      | v6 c =>
        rw [Kernel.step, step_packet6 k now host hsrc ho]
        refine ⟨?_, h.only, h.protoFilter⟩
        cases s with
        | v4 a => exact hagree
        | v6 a => exact IpMaps.Agree.packet_of_ne hagree (fun he => hne (by rw [he])) now host _
  | v4 op =>
    refine ⟨?_, h.only, h.protoFilter⟩
    have hagree := h.agree
    cases s with
    | v4 a =>
      rw [Event.concerns, decide_eq_false_iff_not] at hc
      exact IpMaps.Agree.apply_of_ne hagree fun he => hc (by rw [he])
    | v6 a => exact hagree
  | v6 op =>
    refine ⟨?_, h.only, h.protoFilter⟩
    have hagree := h.agree
    cases s with
    | v4 a => exact hagree
    | v6 a =>
      rw [Event.concerns, decide_eq_false_iff_not] at hc
      exact IpMaps.Agree.apply_of_ne hagree fun he => hc (by rw [he])
  | protoSet p action => cases hc
  | protoDel p => cases hc

/-- A packet of `s` that both global buckets let through: the same verdict. -/
theorem packet (h : k.Follows k' s) (hr : k.Roomy) {now : UInt64} {host : Host} {data : List UInt8}
    (hs : sourceOf data = some s) (ho : k.overloaded now = false) (ho' : k'.overloaded now = false) :
    (fluxguardFilter k' now host data).2 = (fluxguardFilter k now host data).2 ∧
      (k.step (.frame now host data)).Follows (k'.step (.frame now host data)) s := by
  have hf := h.filters
  obtain ⟨hagree, honly, hproto⟩ := h
  cases s with
  | v4 a =>
    have hview : k'.v4.view a = k.v4.view a := (IpMaps.Agree.view hagree).symm
    rw [Kernel.step, Kernel.step, step_packet4 k now host hs ho, step_packet4 k' now host hs ho', hview, hf]
    refine ⟨rfl, ?_, ?_, hproto⟩
    · exact IpMaps.Agree.packet hagree hr.1 (honly.roomy (by decide) (by decide)) rfl rfl now _
    · exact IpMaps.Only.packet honly now host _
  | v6 a =>
    have hview : k'.v6.view a = k.v6.view a := (IpMaps.Agree.view hagree).symm
    rw [Kernel.step, Kernel.step, step_packet6 k now host hs ho, step_packet6 k' now host hs ho', hview, hf]
    refine ⟨rfl, ?_, ?_, hproto⟩
    · exact IpMaps.Agree.packet hagree hr.2 (honly.roomy (by decide) (by decide)) rfl rfl now _
    · exact IpMaps.Only.packet honly now host _

/-- A map operation on `s`, or on the protocol filter, does the same in both. -/
theorem op (h : k.Follows k' s) (hr : k.Roomy) {e : Event} (hc : e.concerns s = true) :
    (k.step e).Follows (k'.step e) s := by
  obtain ⟨hagree, honly, hproto⟩ := h
  cases e with
  | frame now host data => cases hc
  | v4 op =>
    rw [Event.concerns, decide_eq_true_eq] at hc
    subst hc
    refine ⟨?_, IpMaps.Only.apply honly, hproto⟩
    have happly :=
      IpMaps.Agree.apply (f := id) hagree hr.1 (honly.roomy (by decide) (by decide)) (rfl : op.key = op.key)
    rw [MapOp.map_id] at happly
    exact happly
  | v6 op =>
    rw [Event.concerns, decide_eq_true_eq] at hc
    subst hc
    refine ⟨?_, IpMaps.Only.apply honly, hproto⟩
    have happly :=
      IpMaps.Agree.apply (f := id) hagree hr.2 (honly.roomy (by decide) (by decide)) (rfl : op.key = op.key)
    rw [MapOp.map_id] at happly
    exact happly
  | protoSet p action =>
    refine ⟨?_, ?_, ?_⟩
    · cases s <;> exact hagree
    · cases s <;> exact honly
    · rw [Kernel.step, Kernel.step, hproto]
  | protoDel p =>
    refine ⟨?_, ?_, ?_⟩
    · cases s <;> exact hagree
    · cases s <;> exact honly
    · rw [Kernel.step, Kernel.step, hproto]

end Kernel.Follows

/-! ## Runs -/

theorem follows_init (cpus : ℕ) (s : Source) : (Kernel.init cpus).Follows (Kernel.init cpus) s where
  agree := by cases s <;> exact ⟨rfl, rfl, rfl, rfl⟩
  only := by
    cases s <;> exact ⟨fun b hb => absurd hb (BpfHash.not_mem_empty b), fun b hb => absurd hb (BpfHash.not_mem_empty b)⟩
  protoFilter := rfl

/-- The rest of an uncrowded run is uncrowded. -/
theorem Uncrowded.tail {k : Kernel} {e : Event} {es : List Event} (h : Uncrowded k (e :: es)) :
    Uncrowded (k.step e) es where
  roomy := fun n hn => h.roomy (n + 1) (Nat.succ_le_succ hn)
  inserts := fun e' he => h.inserts e' (List.mem_cons_of_mem e he)
  keeps := fun e' he => h.keeps e' (List.mem_cons_of_mem e he)

/-- The full run and the replay, side by side. -/
theorem follows_run {s : Source} {es : List Event} {k k' : Kernel} (h : k.Follows k' s) (hu : Uncrowded k es)
    (hg : Unthrottled k' (alone s k es)) :
    verdicts k' (alone s k es) = seenVerdicts s k es ∧ (run k es).Follows (run k' (alone s k es)) s := by
  -- by induction on the full run; `Follows` is the invariant
  induction es generalizing k k' with
  | nil => exact ⟨rfl, h⟩
  | cons e es ih =>
    have hroom : k.Roomy := hu.roomy 0 (Nat.zero_le _)
    cases ha : k.sees s e with
    | true =>
      rw [alone, ha, Bool.true_or, if_pos rfl] at hg ⊢
      cases e with
      | frame now host data =>
        rw [Kernel.sees, Bool.and_eq_true, decide_eq_true_eq, Bool.not_eq_true'] at ha
        obtain ⟨hverdict, hstep⟩ := @Kernel.Follows.packet k k' s h hroom now host data ha.1 ha.2 (hg.1 now rfl)
        obtain ⟨hrest, hend⟩ := ih hstep hu.tail hg.2
        refine ⟨?_, hend⟩
        rw [verdicts, seenVerdicts, hrest, Kernel.verdict, Kernel.verdict, hverdict, if_pos]
        rw [Kernel.sees, ha.2, decide_eq_true ha.1]
        rfl
      | v4 op => cases ha
      | v6 op => cases ha
      | protoSet p action => cases ha
      | protoDel p => cases ha
    | false =>
      -- what is no packet of `s` adds no verdict to the full run
      have hnot : seenVerdicts s k (e :: es) = seenVerdicts s (k.step e) es := by
        rw [seenVerdicts, ha, if_neg Bool.false_ne_true]
      cases hc : e.concerns s with
      | true =>
        rw [alone, hc, Bool.or_true, if_pos rfl] at hg ⊢
        obtain ⟨hrest, hend⟩ := ih (h.op hroom hc) hu.tail hg.2
        refine ⟨?_, hend⟩
        -- a map operation has no verdict
        have hnone : k'.verdict e = none := by cases e <;> first | rfl | cases hc
        rw [hnot, verdicts, hnone, hrest]
        rfl
      | false =>
        rw [alone, ha, hc, Bool.or_false, if_neg Bool.false_ne_true] at hg ⊢
        obtain ⟨hrest, hend⟩ := ih (h.other ha hc) hu.tail hg
        exact ⟨hrest.trans hnot.symm, hend⟩

/-- **Source isolation.** In a run from boot where no map is full, and whose replay for `s` alone
meets no drop of the global bucket: the replay gives the packets of `s` the verdicts of the full
run and ends with its map entries for `s`. -/
theorem source_isolation {cpus : ℕ} {es : List Event} (hu : Uncrowded (Kernel.init cpus) es) (s : Source)
    (hg : Unthrottled (Kernel.init cpus) (alone s (Kernel.init cpus) es)) :
    verdicts (Kernel.init cpus) (alone s (Kernel.init cpus) es) = seenVerdicts s (Kernel.init cpus) es ∧
      (run (Kernel.init cpus) es).Agree (run (Kernel.init cpus) (alone s (Kernel.init cpus) es)) s := by
  obtain ⟨hverdicts, hend⟩ := follows_run (follows_init cpus s) hu hg
  exact ⟨hverdicts, hend.agree⟩

/-- The victim's packet after a neighbour's, which is then blacklisted. -/
def crowd : List Event :=
  [.frame 200000000 quiet (ip4Frame 10 0 1 6 6), .v4 (.blacklist 0x0601000A 1), .protoSet 17 1,
    .frame 201500000 quiet (ip4Frame 10 0 1 5 6)]

theorem uncrowded_crowd : Uncrowded (Kernel.init 1) crowd where
  roomy := by
    intro n hn
    have hn : n ≤ 4 := hn
    interval_cases n <;> decide
  inserts := by simp [crowd, Event.Inserts, quiet]
  keeps := by simp [crowd, Event.Evicts]

theorem alone_crowd : alone victim (Kernel.init 1) crowd =
    [.protoSet 17 1, .frame 201500000 quiet (ip4Frame 10 0 1 5 6)] := by
  unfold crowd
  rw [alone, if_neg (by decide), alone, if_neg (by decide), alone, if_pos (by decide), alone, if_pos (by decide), alone]

theorem source_isolation_crowd :
    verdicts (Kernel.init 1) (alone victim (Kernel.init 1) crowd) = seenVerdicts victim (Kernel.init 1) crowd ∧
      (run (Kernel.init 1) crowd).Agree (run (Kernel.init 1) (alone victim (Kernel.init 1) crowd)) victim :=
  source_isolation uncrowded_crowd victim (by
    rw [alone_crowd]
    refine ⟨fun now h => (nomatch h), fun now h => ?_, trivial⟩
    obtain rfl : 201500000 = now := Option.some.inj h
    decide)

/-! ## The global bucket is shared -/

/-- A packet of another source, 100 ms before the victim's. It comes when the refill of the
bucket's first hours has just not wrapped yet. -/
def neighbour : List Event :=
  [.frame 36893388147420 quiet (ip4Frame 10 0 1 6 6), .frame 36893488147420 quiet (ip4Frame 10 0 1 5 6)]

theorem uncrowded_neighbour : Uncrowded (Kernel.init 1) neighbour where
  roomy := by
    intro n hn
    have hn : n ≤ 2 := hn
    interval_cases n <;> decide
  inserts := by simp [neighbour, Event.Inserts, quiet]
  keeps := by simp [neighbour, Event.Evicts]

/-- **Alone, a source can be starved by the global bucket.** The victim's packet passes after the
neighbour's, which made the bucket refill; without it, the victim's own refill wraps to nothing. -/
theorem alone_starves :
    Chronological neighbour ∧ Uncrowded (Kernel.init 1) neighbour ∧
      seenVerdicts victim (Kernel.init 1) neighbour = [.pass] ∧
      verdicts (Kernel.init 1) (alone victim (Kernel.init 1) neighbour) = [.drop] := by
  refine ⟨?_, uncrowded_neighbour, ?_, ?_⟩
  · unfold Chronological
    decide
  · decide
  · decide

end FluxGuard
