import FluxGuard.Proof.Flood

/-!
# The event ring buffer over a run

The filter submits a record where it blacklists a source, and nowhere else.

* `ring_run`: the records of a run are those of its exhausted packets, in order.
* `ring_in_order`: they are in the order of their timestamps.
* `events_ledger`: as long as the blacklist has room, the records that name a source are the
  times it was blocked: its place on the blacklist, the records, and the map operations
  that list and unlist it balance.
-/

namespace FluxGuard

/-- The source that a record names. -/
def AttackEvent.source (ev : AttackEvent) : Source := if ev.af = 4 then .v4 ev.srcV4 else .v6 ev.srcV6

/-- What the filter writes over a reserved record. -/
def writeEvent (now : UInt64) : Source → AttackEvent → AttackEvent
  | .v4 a => writeEvent4 a now
  | .v6 a => writeEvent6 a now

theorem source_writeEvent (now : UInt64) (s : Source) (ev : AttackEvent) : (writeEvent now s ev).source = s := by
  cases s <;> simp [writeEvent, writeEvent4, writeEvent6, AttackEvent.source]

theorem timestamp_writeEvent (now : UInt64) (s : Source) (ev : AttackEvent) :
    (writeEvent now s ev).timestamp = now := by
  cases s <;> rfl

/-- The record that an event submits. -/
def Kernel.submits (k : Kernel) : Event → List AttackEvent
  | .frame now host data =>
    match sourceOf data with
    | some s =>
      if k.overloaded now then []
      else emitted host (writeEvent now s) ((k.view s).stage now (k.filters (protoOf data s)))
    | none => []
  | _ => []

/-- The records that the events of a run submit. -/
def submitted (k : Kernel) : List Event → List AttackEvent
  | [] => []
  | e :: es => k.submits e ++ submitted (k.step e) es

variable {k : Kernel} {s : Source} {e : Event} {es : List Event}

/-! ## The records of a run -/

/-- An event submits its records to the end of the ring buffer. -/
theorem ring_step (k : Kernel) (e : Event) : (k.step e).eventRingbuf = k.eventRingbuf ++ k.submits e := by
  cases e with
  | frame now host data =>
    cases hs : sourceOf data with
    | none =>
      have hring : (k.step (.frame now host data)).eventRingbuf = k.eventRingbuf := by
        rw [Kernel.step, fluxguardFilter_eq]
        split
        · rfl
        · rename_i hl
          split
          · rfl
          · rw [dispatch_none _ now host hl hs]
            rfl
      simp [hring, Kernel.submits, hs]
    | some s =>
      cases ho : k.overloaded now with
      | true =>
        have hring : (k.step (.frame now host data)).eventRingbuf = k.eventRingbuf := by
          rw [Kernel.step, fluxguardFilter_eq, if_neg (length_of_source hs), if_pos ho]
          rfl
        simp [hring, Kernel.submits, hs, ho]
      | false =>
        cases s with
        | v4 a =>
          rw [Kernel.step, step_packet4 k now host hs ho]
          simp only [Kernel.submits, hs, ho]
          rfl
        | v6 a =>
          rw [Kernel.step, step_packet6 k now host hs ho]
          simp only [Kernel.submits, hs, ho]
          rfl
  | v4 op => exact (List.append_nil _).symm
  | v6 op => exact (List.append_nil _).symm
  | protoSet p action => exact (List.append_nil _).symm
  | protoDel p => exact (List.append_nil _).symm

/-- A run submits those of its events, in order. -/
theorem ring_run (k : Kernel) (es : List Event) : (run k es).eventRingbuf = k.eventRingbuf ++ submitted k es := by
  induction es generalizing k with
  | nil => exact (List.append_nil _).symm
  | cons e es ih =>
    rw [run_cons, ih, ring_step, List.append_assoc]
    rfl

/-- A submitted record names the source of its packet, which the bucket has just blacklisted. -/
theorem of_mem_submits {ev : AttackEvent} (h : ev ∈ k.submits e) :
    ∃ now host data, e = .frame now host data ∧ k.stageOf ev.source e = some .exhausted ∧
      k.submits e = [ev] ∧ host.reserve.isSome = true ∧ ev.timestamp = now := by
  cases e with
  | frame now host data =>
    cases hs : sourceOf data with
    | none => simp [Kernel.submits, hs] at h
    | some s =>
      cases ho : k.overloaded now with
      | true => simp [Kernel.submits, hs, ho] at h
      | false =>
        have hsub : k.submits (.frame now host data) =
            emitted host (writeEvent now s) ((k.view s).stage now (k.filters (protoOf data s))) := by
          simp [Kernel.submits, hs, ho]
        rw [hsub] at h
        cases hst : (k.view s).stage now (k.filters (protoOf data s)) with
        | exhausted =>
          rw [hst] at h hsub
          cases hr : host.reserve with
          | none => simp [emitted, hr] at h
          | some r =>
            have hev : ev = writeEvent now s r := by simpa [emitted, hr] using h
            have hsrc : ev.source = s := by rw [hev, source_writeEvent]
            have hact : k.act s (.frame now host data) = .packet now host (k.filters (protoOf data s)) (k.room s) :=
              if_pos ⟨hs, ho⟩
            refine ⟨now, host, data, rfl, ?_, ?_, by simp [hr], ?_⟩
            · rw [hsrc, Kernel.stageOf, hact]
              exact congrArg some hst
            · rw [hsub]
              simp [emitted, hr, hev]
            · rw [hev, timestamp_writeEvent]
        | allowed => simp [emitted, hst] at h
        | filtered => simp [emitted, hst] at h
        | blacklisted => simp [emitted, hst] at h
        | fresh => simp [emitted, hst] at h
        | admitted => simp [emitted, hst] at h
  | v4 op => cases h
  | v6 op => cases h
  | protoSet p action => cases h
  | protoDel p => cases h

/-- The records of a run are not later than its frames. -/
theorem timestamp_of_mem_submitted {ev : AttackEvent} (h : ev ∈ submitted k es) :
    ev.timestamp ∈ es.filterMap Event.now := by
  induction es generalizing k with
  | nil => cases h
  | cons e es ih =>
    rcases List.mem_append.1 h with h | h
    · obtain ⟨now, host, data, rfl, -, -, -, ht⟩ := of_mem_submits h
      rw [ht]
      exact List.mem_cons_self
    · have := ih h
      cases hn : e.now with
      | none => rwa [List.filterMap_cons_none hn]
      | some now =>
        rw [List.filterMap_cons_some hn]
        exact List.mem_cons_of_mem _ this

/-- **The records are in the order of their timestamps**, for frames in the order of theirs. -/
theorem ring_in_order (cpus : ℕ) (hc : Chronological es) :
    (run (Kernel.init cpus) es).eventRingbuf.Pairwise fun ev ev' => ev.timestamp ≤ ev'.timestamp := by
  rw [ring_run]
  show (submitted (Kernel.init cpus) es).Pairwise _
  generalize Kernel.init cpus = k
  induction es generalizing k with
  | nil => exact List.Pairwise.nil
  | cons e es ih =>
    have hc' : Chronological es := by
      unfold Chronological at hc ⊢
      cases hn : e.now with
      | none => rwa [List.filterMap_cons_none hn] at hc
      | some now =>
        rw [List.filterMap_cons_some hn] at hc
        exact hc.of_cons
    refine List.pairwise_append.2 ⟨?_, ih hc' _, ?_⟩
    · cases hsub : k.submits e with
      | nil => exact List.Pairwise.nil
      | cons ev evs =>
        obtain ⟨now, host, data, -, -, hone, -⟩ := of_mem_submits (show ev ∈ k.submits e by rw [hsub]; simp)
        rw [hsub] at hone
        rw [hone]
        exact List.pairwise_singleton _ _
    · intro ev hev ev' hev'
      obtain ⟨now, host, data, rfl, -, -, -, ht⟩ := of_mem_submits hev
      have hmem := timestamp_of_mem_submitted hev'
      unfold Chronological at hc
      rw [List.filterMap_cons_some (f := Event.now) (b := now) rfl] at hc
      rw [ht]
      exact List.rel_of_pairwise_cons hc hmem

/-! ## The ledger of a source -/

/-- The packet of the source that is decided by its empty bucket. -/
def Kernel.exhausts (k : Kernel) (s : Source) (e : Event) : Bool := decide (k.stageOf s e = some .exhausted)

/-- The map operation puts the source on the blacklist, where it was not. -/
def Kernel.lists (k : Kernel) (s : Source) (e : Event) : Bool :=
  match k.act s e with
  | .blacklist => !(k.view s).listed
  | _ => false

/-- The map operation takes the source off the blacklist, where it was. -/
def Kernel.unlists (k : Kernel) (s : Source) (e : Event) : Bool :=
  match k.act s e with
  | .unblacklist => (k.view s).listed
  | _ => false

/-- The records that name a source. -/
def recordsOf (s : Source) (ring : List AttackEvent) : ℕ := ring.countP fun ev => decide (ev.source = s)

/-- One event on the ledger of a source. -/
theorem ledger_step (hroom : k.stageOf s e = some .exhausted → k.room s = true) :
    (k.view s).listed.toNat + (if k.exhausts s e then 1 else 0) + (if k.lists s e then 1 else 0) =
      ((k.step e).view s).listed.toNat + if k.unlists s e then 1 else 0 := by
  rw [Kernel.view_step]
  unfold Kernel.exhausts Kernel.lists Kernel.unlists Kernel.stageOf at *
  cases hact : k.act s e with
  | packet now host filtered room =>
    obtain ⟨data, -, -, -, -, rfl⟩ := Kernel.act_packet hact
    rw [View.step, View.listed_packet]
    rw [hact] at hroom
    cases hst : (k.view s).stage now filtered with
    | exhausted =>
      obtain ⟨-, -, hl⟩ := View.of_reachesBucket (v := k.view s) (by rw [hst]; rfl)
      rw [hroom (congrArg some hst), hl]
      simp [hst]
    | allowed => simp [hst]
    | filtered => simp [hst]
    | blacklisted => simp [hst]
    | fresh => simp [hst]
    | admitted => simp [hst]
  | blacklist => cases (k.view s).listed <;> simp [View.step]
  | unblacklist => cases (k.view s).listed <;> simp [View.step]
  | allow => simp [View.step]
  | disallow => simp [View.step]
  | evictMeter => simp [View.step]
  | evictRate => simp [View.step]
  | idle => simp [View.step]

/-- An exhausted packet submits one record, which names its source, if the kernel hands one out. -/
theorem recordsOf_submits (hkept : ∀ now host data, e = .frame now host data → host.reserve.isSome = true) :
    recordsOf s (k.submits e) = if k.exhausts s e then 1 else 0 := by
  unfold Kernel.exhausts
  by_cases hst : k.stageOf s e = some .exhausted
  · obtain ⟨now, host, data, rfl, hs, ho, hstage, -, -⟩ := Kernel.of_stageOf hst
    obtain ⟨r, hr⟩ := Option.isSome_iff_exists.1 (hkept now host data rfl)
    have hsub : k.submits (.frame now host data) = [writeEvent now s r] := by
      simp only [Kernel.submits, hs, ho, hstage, emitted, hr]
      rfl
    simp [hsub, hst, recordsOf, source_writeEvent]
  · simp only [hst, decide_false, Bool.false_eq_true, if_false]
    refine List.countP_eq_zero.2 ?_
    intro ev hev
    obtain ⟨now, host, data, -, hst', -⟩ := of_mem_submits hev
    simp only [decide_eq_true_eq]
    rintro rfl
    exact hst hst'

/-- Over a run the blocks that were there, recorded or listed by hand are those still there or taken off. -/
theorem ledger_run (k : Kernel) (es : List Event)
    (hroom : ∀ n (hn : n < es.length), (kAt k es n).stageOf s es[n] = some .exhausted → (kAt k es n).room s = true)
    (hkept : ∀ now host data, Event.frame now host data ∈ es → host.reserve.isSome = true) :
    (k.view s).listed.toNat + recordsOf s (submitted k es) + countAlong (fun k e => k.lists s e) k es =
      ((run k es).view s).listed.toNat + countAlong (fun k e => k.unlists s e) k es := by
  induction es generalizing k with
  | nil => rfl
  | cons e es ih =>
    have hstep := ledger_step (k := k) (s := s) (e := e) (hroom 0 (Nat.succ_pos _))
    have hrest := ih (k.step e) (fun n hn hst => hroom (n + 1) (Nat.succ_lt_succ hn) hst)
      fun now host data h => hkept now host data (List.mem_cons_of_mem _ h)
    have hrec : recordsOf s (submitted k (e :: es)) =
        (if k.exhausts s e then 1 else 0) + recordsOf s (submitted (k.step e) es) := by
      rw [← recordsOf_submits fun now host data h => hkept now host data (h ▸ List.mem_cons_self)]
      exact List.countP_append
    rw [hrec, run_cons, countAlong, countAlong]
    omega

/-- **One record a block.** Let the blacklist have room for the source whenever its bucket is empty,
and let the ring buffer have room for the records. Then a run submits as many records that name the
source as the filter puts it on the blacklist: together with the map operations that list it they
are the operations that unlist it, but for where it starts and where it ends. -/
theorem events_ledger (cpus : ℕ) (es : List Event) (s : Source)
    (hroom : ∀ n (hn : n < es.length), (kAt (Kernel.init cpus) es n).stageOf s es[n] = some .exhausted →
      (kAt (Kernel.init cpus) es n).room s = true)
    (hkept : ∀ now host data, Event.frame now host data ∈ es → host.reserve.isSome = true) :
    recordsOf s (run (Kernel.init cpus) es).eventRingbuf + countAlong (fun k e => k.lists s e) (Kernel.init cpus) es =
      ((run (Kernel.init cpus) es).view s).listed.toNat +
        countAlong (fun k e => k.unlists s e) (Kernel.init cpus) es := by
  have hrun := ledger_run (Kernel.init cpus) es hroom hkept
  have hinit : ((Kernel.init cpus).view s).listed = false := by cases s <;> rfl
  rw [hinit] at hrun
  rw [ring_run]
  show recordsOf s (submitted (Kernel.init cpus) es) + _ = _
  simpa using hrun

/-- A burst of the victim blocks it, and userspace releases it. -/
def blockedOnce : List Event := burst1001 ++ [.v4 (.unblacklist 0x0501000A)]

/-- No frame lists or unlists a source for userspace. -/
theorem Kernel.not_lists_frame (k : Kernel) (s : Source) (now : UInt64) (host : Host) (data : List UInt8) :
    k.lists s (.frame now host data) = false ∧ k.unlists s (.frame now host data) = false := by
  unfold Kernel.lists Kernel.unlists Kernel.act
  by_cases hc : sourceOf data = some s ∧ k.overloaded now = false
  · simp only [if_pos hc]
    exact ⟨trivial, trivial⟩
  · simp only [if_neg hc]
    exact ⟨trivial, trivial⟩

theorem listed_burst1001 : ((run (Kernel.init 1) burst1001).view victim).listed = true := by
  have hlen : burst1001.length = 1001 := List.length_replicate
  have hget : burst1001[1000] = burstFrame 2000000000 := List.eq_of_mem_replicate (List.getElem_mem _)
  have hst : (kAt (Kernel.init 1) burst1001 1000).stageOf victim burst1001[1000] = some .exhausted := by
    rw [hget, kAt_burst1001 (by omega)]
    exact stage_burst le_rfl
  have hlisted := (listed_of_exhausted (by omega) hst).2
  rw [room_of_lt (by omega) (by unfold MAX_ENTRIES_V6; omega), kAt_burst1001 le_rfl] at hlisted
  exact hlisted

/-- The release of the victim. -/
theorem Kernel.unlists_victim (k : Kernel) :
    k.lists victim (.v4 (.unblacklist 0x0501000A)) = false ∧
      k.unlists victim (.v4 (.unblacklist 0x0501000A)) = (k.view victim).listed ∧
      ((k.step (.v4 (.unblacklist 0x0501000A))).view victim).listed = false := by
  rw [Kernel.view_step]
  exact ⟨rfl, rfl, rfl⟩

theorem lists_blockedOnce : countAlong (fun k e => k.lists victim e) (Kernel.init 1) blockedOnce = 0 := by
  refine countAlong_eq_zero (fun e he k => ?_) _
  rcases List.mem_append.1 he with he | he
  · rw [List.eq_of_mem_replicate he]
    exact (Kernel.not_lists_frame k victim _ _ _).1
  · rw [List.mem_singleton.1 he]
    exact k.unlists_victim.1

theorem unlists_blockedOnce : countAlong (fun k e => k.unlists victim e) (Kernel.init 1) blockedOnce = 1 := by
  have hburst : countAlong (fun k e => k.unlists victim e) (Kernel.init 1) burst1001 = 0 := by
    refine countAlong_eq_zero (fun e he k => ?_) _
    rw [List.eq_of_mem_replicate he]
    exact (Kernel.not_lists_frame k victim _ _ _).2
  unfold blockedOnce
  rw [countAlong_concat, hburst, if_pos ((Kernel.unlists_victim _).2.1.trans listed_burst1001)]

/-- One block, one record and one release. -/
theorem events_ledger_blockedOnce :
    recordsOf victim (run (Kernel.init 1) blockedOnce).eventRingbuf = 1 ∧
      recordsOf victim (run (Kernel.init 1) blockedOnce).eventRingbuf +
          countAlong (fun k e => k.lists victim e) (Kernel.init 1) blockedOnce =
        ((run (Kernel.init 1) blockedOnce).view victim).listed.toNat +
          countAlong (fun k e => k.unlists victim e) (Kernel.init 1) blockedOnce := by
  have hlen : blockedOnce.length = 1002 := by
    unfold blockedOnce burst1001
    rw [List.length_append, List.length_replicate]
    rfl
  have hledger :=
    events_ledger 1 blockedOnce victim (fun n hn _ => room_of_lt hn.le (by unfold MAX_ENTRIES_V6; omega)) ?_
  · have hend : ((run (Kernel.init 1) blockedOnce).view victim).listed = false := by
      unfold blockedOnce
      rw [run_concat]
      exact (Kernel.unlists_victim _).2.2
    refine ⟨?_, hledger⟩
    rw [lists_blockedOnce, unlists_blockedOnce, hend, Nat.add_zero, Bool.toNat_false, Nat.zero_add] at hledger
    exact hledger
  · intro now host data h
    rcases List.mem_append.1 h with h | h
    · cases List.eq_of_mem_replicate h
      rfl
    · cases List.mem_singleton.1 h

end FluxGuard
