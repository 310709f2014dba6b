import FluxGuard.Model.Scrape
import FluxGuard.Proof.Account
import FluxGuard.Proof.Metrics

/-!
# Scrapes between two calls

The blocked set and the number of blocked addresses are published by two calls.

* `consistent_render`: a text is consistent exactly when the state that it shows is.
* `scrapes_iff`: all scrapes are consistent, if and only if none falls between the two calls of
  a tick that changes the number.
* `tick_reports`: the calls of a tick of the brain are those of a report.
-/

namespace FluxGuard

/-- A line of the blocked set. -/
def isBlockedIpLine (l : Text) : Bool := "fluxguard_blocked_ip\x7b".toList.isPrefixOf l

/-- A line of the number of blocked addresses. -/
def isBlockedIpsLine (l : Text) : Bool := "fluxguard_blocked_ips ".toList.isPrefixOf l

/-- **A consistent text**: `fluxguard_blocked_ips` has one value, the number of `fluxguard_blocked_ip` lines. -/
def Consistent (text : Text) : Prop :=
  ((splitLines text).filter isBlockedIpsLine).map lastInt = [some ((splitLines text).countP isBlockedIpLine : ℤ)]

/-! ## One text -/

/-- The lines show `n` addresses and the numbers `vs`. -/
structure Tells (ls : List Text) (n : ℕ) (vs : List (Option ℤ)) : Prop where
  addresses : ls.countP isBlockedIpLine = n
  numbers : (ls.filter isBlockedIpsLine).map lastInt = vs

namespace Tells

variable {l : Text} {ls ls' : List Text} {n n' : ℕ} {vs vs' : List (Option ℤ)}

theorem nil : Tells [] 0 [] := ⟨rfl, rfl⟩

/-- What two pages tell, they tell together. -/
theorem append (h : Tells ls n vs) (h' : Tells ls' n' vs') : Tells (ls ++ ls') (n + n') (vs ++ vs') where
  addresses := by rw [List.countP_append, h.addresses, h'.addresses]
  numbers := by rw [List.filter_append, List.map_append, h.numbers, h'.numbers]

/-- A line about something else. -/
theorem other (hl : ¬ isBlockedIpLine l = true) (hl' : ¬ isBlockedIpsLine l = true) (h : Tells ls n vs) :
    Tells (l :: ls) n vs where
  addresses := by rw [List.countP_cons_of_neg hl, h.addresses]
  numbers := by rw [List.filter_cons_of_neg hl', h.numbers]

theorem comment (hl : isComment l = true) (h : Tells ls n vs) : Tells (l :: ls) n vs := by
  unfold isComment at hl
  rw [Bool.and_eq_true, beq_iff_eq] at hl
  obtain ⟨s, rfl⟩ := List.head?_eq_some_iff.1 hl.1
  refine other ?_ ?_ h
  · rw [Bool.not_eq_true]
    exact isPrefixOf_of_apart (literal rfl (apart · ['#']) rfl) s
  · rw [Bool.not_eq_true]
    exact isPrefixOf_of_apart (literal rfl (apart · ['#']) rfl) s

theorem blockedIps (k : ℕ) (h : Tells ls n vs) :
    Tells (("fluxguard_blocked_ips ".toList ++ formatInt k) :: ls) n (some (k : ℤ) :: vs) := by
  have haddress : ¬ isBlockedIpLine ("fluxguard_blocked_ips ".toList ++ formatInt k) = true := not_begins rfl rfl rfl _
  have hnumber : isBlockedIpsLine ("fluxguard_blocked_ips ".toList ++ formatInt k) = true := isPrefixOf_append _ _
  refine ⟨?_, ?_⟩
  · rw [List.countP_cons_of_neg haddress, h.addresses]
  · rw [List.filter_cons_of_pos hnumber, List.map_cons, lastInt_append (spaced rfl rfl), h.numbers]

theorem packets (l : List (Text × ℕ)) : Tells (l.map packetsLine) 0 [] := by
  induction l with
  | nil => exact nil
  | cons q l ih =>
    have hline : packetsLine q = "fluxguard_meter_packets\x7bip=\x22".toList ++
        (safe q.1 ++ ("\x22\x7d ".toList ++ formatInt q.2)) := by
      unfold packetsLine
      rw [List.append_assoc, List.append_assoc]
    rw [List.map_cons, hline]
    exact other (not_begins rfl rfl rfl _) (not_begins rfl rfl rfl _) ih

theorem blocked (l : List Text) : Tells (l.map blockedLine) l.length [] := by
  induction l with
  | nil => exact nil
  | cons ip l ih =>
    have hline : blockedLine ip = "fluxguard_blocked_ip\x7b".toList ++
        ("ip=\x22".toList ++ (safe ip ++ "\x22\x7d 1".toList)) := by
      have hbegin : "fluxguard_blocked_ip\x7bip=\x22".toList = "fluxguard_blocked_ip\x7b".toList ++
          "ip=\x22".toList := by
        rw [← String.toList_append]
        rfl
      unfold blockedLine
      rw [hbegin, List.append_assoc, List.append_assoc]
    have haddress : isBlockedIpLine (blockedLine ip) = true := by
      rw [hline]
      exact isPrefixOf_append _ _
    have hnumber : ¬ isBlockedIpsLine (blockedLine ip) = true := by
      rw [hline]
      exact not_begins rfl rfl rfl _
    refine ⟨?_, ?_⟩
    · rw [List.map_cons, List.countP_cons_of_pos haddress, ih.addresses, List.length_cons]
    · rw [List.map_cons, List.filter_cons_of_neg hnumber, ih.numbers]

/-- The section of the blocked set. -/
theorem blockedSection (s : List Text) :
    Tells
      (if s = [] then []
      else
        ["# HELP fluxguard_blocked_ip Per-IP block status (1 = currently blocked, supports IPv4/IPv6).".toList,
          "# TYPE fluxguard_blocked_ip gauge".toList] ++
        (sortedSet s).map blockedLine)
      s.length [] := by
  split
  · rename_i hs
    rw [hs]
    exact nil
  · have hblocked := blocked (sortedSet s)
    rw [sortedSet, List.length_mergeSort] at hblocked
    exact comment (literal rfl isComment rfl) (comment (literal rfl isComment rfl) hblocked)

/-- The page tells its blocks and their count. -/
theorem lines (m : MetricsState) : Tells m.lines m.blockedIpsSet.length [some (m.blockedIps : ℤ)] := by
  unfold MetricsState.lines
  -- one section of the text at a time, in the order of the source
  have hhead :
    Tells ["# HELP fluxguard_meter_packets Current packet counter per source IP (IPv4 or IPv6) from meter_maps.".toList,
      "# TYPE fluxguard_meter_packets gauge".toList] 0 [] :=
    comment (literal rfl isComment rfl) (comment (literal rfl isComment rfl) nil)
  have hcount : Tells ["# HELP fluxguard_blocked_ips Number of IPs currently blocked by the brain.".toList,
      "# TYPE fluxguard_blocked_ips gauge".toList, "fluxguard_blocked_ips ".toList ++ formatInt m.blockedIps] 0
        [some (m.blockedIps : ℤ)] :=
    comment (literal rfl isComment rfl) (comment (literal rfl isComment rfl) (blockedIps _ nil))
  have hevents : Tells ["# HELP fluxguard_block_events_total Cumulative block events.".toList,
      "# TYPE fluxguard_block_events_total counter".toList,
      "fluxguard_block_events_total ".toList ++ formatInt m.blockEvents,
      "# HELP fluxguard_unblock_events_total Cumulative unblock events.".toList,
      "# TYPE fluxguard_unblock_events_total counter".toList,
      "fluxguard_unblock_events_total ".toList ++ formatInt m.unblockEvents,
      "# HELP fluxguard_global_pps_exceeded_total Global Shields-Up events triggered.".toList,
      "# TYPE fluxguard_global_pps_exceeded_total counter".toList,
      "fluxguard_global_pps_exceeded_total ".toList ++ formatInt m.globalPpsExceeded] 0 [] := by
    refine comment (literal rfl isComment rfl)
      (comment (literal rfl isComment rfl) (other (not_begins rfl rfl rfl _) (not_begins rfl rfl rfl _) ?_))
    refine comment (literal rfl isComment rfl)
      (comment (literal rfl isComment rfl) (other (not_begins rfl rfl rfl _) (not_begins rfl rfl rfl _) ?_))
    refine comment (literal rfl isComment rfl)
      (comment (literal rfl isComment rfl) (other (not_begins rfl rfl rfl _) (not_begins rfl rfl rfl _) nil))
  have h := (((hhead.append (packets (sortedItems m.packetsByIp))).append hcount).append
    (blockedSection m.blockedIpsSet)).append hevents
  have hlength : 0 + 0 + 0 + m.blockedIpsSet.length + 0 = m.blockedIpsSet.length := by omega
  rw [hlength] at h
  exact h

end Tells

/-- **A text is consistent exactly when the state that it shows is.** -/
theorem consistent_render {m : MetricsState} (hp : ∀ ip ∈ m.packetsByIp, PlainLabel ip)
    (hb : ∀ ip ∈ m.blockedIpsSet, PlainLabel ip) :
    Consistent m.renderPrometheusText ↔ m.blockedIps = m.blockedIpsSet.length := by
  have htells := Tells.lines m
  unfold Consistent MetricsState.renderPrometheusText
  rw [splitLines_joinLines (parses_lines hp hb).lines, htells.addresses, htells.numbers]
  simp

/-! ## The state between two calls -/

section Runs

variable {T : Type}

/-- The number that the last report published. -/
def lastSize (p : ℕ) (reports : List (Report T)) : ℕ := (reports.map fun r => r.blockedUntil.size).getLastD p

/-- **Between the two publishing calls.** After `n` calls a tick has published its blocked set, of
another size than the number that still stands. -/
def Torn (p : ℕ) (reports : List (Report T)) (n : ℕ) : Prop :=
  ∃ before r after, reports = before ++ r :: after ∧ n + 1 = (before.flatMap Report.calls).length + r.calls.length ∧
    r.blockedUntil.size ≠ lastSize p before

/-- Events are counted, nothing else changes. -/
theorem foldl_events {m : MetricsState} {cs : List MetricsCall}
    (h : ∀ c ∈ cs, c = .incBlockEvents ∨ c = .incUnblockEvents ∨ c = .incGlobalPpsExceeded) :
    (cs.foldl MetricsState.call m).blockedIpsSet = m.blockedIpsSet ∧
      (cs.foldl MetricsState.call m).blockedIps = m.blockedIps ∧
      (cs.foldl MetricsState.call m).packetsByIp = m.packetsByIp := by
  induction cs generalizing m with
  | nil => exact ⟨rfl, rfl, rfl⟩
  | cons c cs ih =>
    obtain ⟨hset, hnum, hpackets⟩ := ih (m := m.call c) fun c' hc' => h c' (List.mem_cons_of_mem _ hc')
    rw [List.foldl_cons, hset, hnum, hpackets]
    rcases h c List.mem_cons_self with rfl | rfl | rfl <;> exact ⟨rfl, rfl, rfl⟩

/-- The events of a report are of the three kinds. -/
theorem Report.mem_events {r : Report T} {c : MetricsCall} (h : c ∈ r.events) :
    c = .incBlockEvents ∨ c = .incUnblockEvents ∨ c = .incGlobalPpsExceeded := by
  unfold Report.events at h
  rw [List.mem_append, List.mem_append] at h
  rcases h with (h | h) | h
  · split at h
    · exact Or.inr (Or.inr (List.mem_singleton.1 h))
    · exact (nomatch h)
  · exact Or.inl (List.mem_replicate.1 h).2
  · exact Or.inr (Or.inl (List.mem_replicate.1 h).2)

/-- Labels are address texts. -/
structure MetricsState.Labelled (m : MetricsState) : Prop where
  packets : ∀ ip ∈ m.packetsByIp, ∃ s : Source, s.text = ip
  blocked : ∀ ip ∈ m.blockedIpsSet, ∃ s : Source, s.text = ip

/-- The state after a whole tick. -/
theorem foldl_calls (r : Report T) (m : MetricsState) :
    (r.calls.foldl MetricsState.call m).blockedIpsSet = r.blockedUntil.keys ∧
      (r.calls.foldl MetricsState.call m).blockedIps = r.blockedUntil.size ∧
      (r.calls.foldl MetricsState.call m).packetsByIp = r.allCounts := by
  unfold Report.calls
  rw [List.foldl_append]
  exact ⟨rfl, rfl, rfl⟩

theorem Report.length_calls (r : Report T) : r.calls.length = r.events.length + 2 := by
  unfold Report.calls
  rw [List.length_append]
  rfl

/-- The state inside a tick. -/
theorem foldl_take_calls (r : Report T) (m : MetricsState) {n : ℕ} (hn : n < r.calls.length) :
    ((r.calls.take n).foldl MetricsState.call m).blockedIps = m.blockedIps ∧
      ((r.calls.take n).foldl MetricsState.call m).packetsByIp = m.packetsByIp ∧
      ((r.calls.take n).foldl MetricsState.call m).blockedIpsSet =
        if n + 1 = r.calls.length then r.blockedUntil.keys else m.blockedIpsSet := by
  rw [r.length_calls] at hn ⊢
  -- the last call but one publishes the set; all before it only count events
  rcases Nat.lt_or_ge r.events.length n with h | h
  · obtain rfl : n = r.events.length + 1 := by omega
    have htake : r.calls.take (r.events.length + 1) = r.events ++ [.updateBlockedSet r.blockedUntil.keys] := by
      unfold Report.calls
      rw [List.take_length_add_append]
      rfl
    obtain ⟨-, hnum, hpackets⟩ := foldl_events (m := m) fun c hc => Report.mem_events (r := r) hc
    rw [htake, List.foldl_append, if_pos rfl]
    exact ⟨hnum, hpackets, rfl⟩
  · have htake : r.calls.take n = r.events.take n := by
      unfold Report.calls
      exact List.take_append_of_le_length h
    obtain ⟨hset, hnum, hpackets⟩ :=
      foldl_events (m := m) fun c hc => Report.mem_events (r := r) (List.mem_of_mem_take hc)
    rw [htake, if_neg (by omega)]
    exact ⟨hnum, hpackets, hset⟩

/-- The first tick, or a later one. -/
theorem torn_cons {p n : ℕ} {r : Report T} {reports : List (Report T)} :
    Torn p (r :: reports) n ↔
      n + 1 = r.calls.length ∧ r.blockedUntil.size ≠ p ∨
      ∃ k, n = r.calls.length + k ∧ Torn r.blockedUntil.size reports k := by
  constructor
  · rintro ⟨before, r', after, hsplit, hn, hsize⟩
    -- whether the torn tick is the first one
    cases before with
    | nil =>
      obtain ⟨rfl, -⟩ := List.cons.inj hsplit
      rw [List.flatMap_nil, List.length_nil, Nat.zero_add] at hn
      exact Or.inl ⟨hn, hsize⟩
    | cons r'' before =>
      obtain ⟨rfl, hrest⟩ := List.cons.inj hsplit
      rw [List.flatMap_cons, List.length_append, r'.length_calls] at hn
      refine Or.inr ⟨n - r.calls.length, by omega, before, r', after, hrest, ?_, ?_⟩
      · rw [r'.length_calls]
        omega
      · rwa [lastSize, List.map_cons, List.getLastD_cons] at hsize
  · rintro (⟨hn, hsize⟩ | ⟨k, rfl, before, r', after, rfl, hk, hsize⟩)
    · exact ⟨[], r, reports, rfl, by rw [hn, List.flatMap_nil, List.length_nil, Nat.zero_add], hsize⟩
    · refine ⟨r :: before, r', after, rfl, ?_, ?_⟩
      · rw [List.flatMap_cons, List.length_append]
        omega
      · rwa [lastSize, List.map_cons, List.getLastD_cons]

/-- After a report the state is labelled. -/
theorem labelled_of_report {m : MetricsState} (r : Report T) (hset : m.blockedIpsSet = r.blockedUntil.keys)
    (hpackets : m.packetsByIp = r.allCounts) : m.Labelled where
  packets := by rw [hpackets]; exact r.allCounts_text
  blocked := by rw [hset]; exact r.blockedUntil_text

/-- **The state after some of the calls.** -/
theorem state_after (reports : List (Report T)) {m : MetricsState} (hm : m.blockedIps = m.blockedIpsSet.length)
    (hl : m.Labelled)
    (n : ℕ) :
    (((reports.flatMap Report.calls).take n).foldl MetricsState.call m).Labelled ∧
      ((((reports.flatMap Report.calls).take n).foldl MetricsState.call m).blockedIps =
          (((reports.flatMap Report.calls).take n).foldl MetricsState.call m).blockedIpsSet.length ↔
        ¬ Torn m.blockedIps reports n) := by
  -- by induction on the ticks; each starts from a state that agrees with itself
  induction reports generalizing m n with
  | nil =>
    rw [List.flatMap_nil, List.take_nil, List.foldl_nil]
    refine ⟨hl, fun _ => ?_, fun _ => hm⟩
    rintro ⟨before, r, after, hsplit, -⟩
    simp at hsplit
  | cons r reports ih =>
    rw [List.flatMap_cons, List.take_append, List.foldl_append, torn_cons]
    -- the scrape falls inside the first tick, or after it
    rcases Nat.lt_or_ge n r.calls.length with hn | hn
    · obtain ⟨hnum, hpackets, hset⟩ := foldl_take_calls r m hn
      have hlater : ¬ ∃ k, n = r.calls.length + k ∧ Torn r.blockedUntil.size reports k := fun ⟨k, hk, _⟩ => by omega
      rw [Nat.sub_eq_zero_of_le hn.le, List.take_zero, List.foldl_nil, hnum, hset, or_iff_left hlater]
      -- between the two publishing calls, or before both
      by_cases hlast : n + 1 = r.calls.length
      · rw [if_pos hlast] at hset ⊢
        refine ⟨⟨by rw [hpackets]; exact hl.packets, by rw [hset]; exact r.blockedUntil_text⟩, ?_⟩
        rw [← Dict.size_eq_keys, not_and, not_not]
        exact ⟨fun h _ => h.symm, fun h => (h hlast).symm⟩
      · rw [if_neg hlast] at hset ⊢
        refine ⟨⟨by rw [hpackets]; exact hl.packets, by rw [hset]; exact hl.blocked⟩, ?_⟩
        exact ⟨fun _ h => hlast h.1, fun _ => hm⟩
    · obtain ⟨hset, hnum, hpackets⟩ := foldl_calls r m
      have hfirst : ¬ (n + 1 = r.calls.length ∧ r.blockedUntil.size ≠ m.blockedIps) := fun h => by omega
      have hm' : (r.calls.foldl MetricsState.call m).blockedIps =
          (r.calls.foldl MetricsState.call m).blockedIpsSet.length := by
        rw [hnum, hset, Dict.size_eq_keys]
      obtain ⟨hlabels, hiff⟩ := ih hm' (labelled_of_report r hset hpackets) (n - r.calls.length)
      rw [List.take_of_length_le hn, or_iff_right hfirst]
      refine ⟨hlabels, hiff.trans (not_congr ?_)⟩
      rw [hnum]
      constructor
      · intro h
        exact ⟨n - r.calls.length, by omega, h⟩
      · rintro ⟨k, hk, h⟩
        rwa [hk, Nat.add_sub_cancel_left]

/-- **Scrapes are consistent** as long as none falls between the two calls of a tick that publishes
another number of addresses than the tick before. -/
theorem scrapes_iff (reports : List (Report T)) (schedule : List Turn) :
    (∀ text ∈ served reports schedule, Consistent text) ↔
      ∀ done rest, schedule = done ++ .reader :: rest → ¬ Torn 0 reports (done.count .writer) := by
  have hinit : MetricsState.init.Labelled := ⟨fun _ h => (nomatch h), fun _ h => (nomatch h)⟩
  have hone : ∀ n, Consistent
    (Guarded.after MetricsState.call ⟨MetricsState.init, reports.flatMap Report.calls⟩ n).renderPrometheusText ↔
      ¬ Torn 0 reports n := by
    intro n
    obtain ⟨hlabels, hiff⟩ := state_after reports (m := MetricsState.init) rfl hinit n
    exact (consistent_render (fun ip hip => plain_of_text (hlabels.packets ip hip))
      fun ip hip => plain_of_text (hlabels.blocked ip hip)).trans hiff
  constructor
  · intro h done rest hsplit
    exact (hone _).1 (h _ ((Guarded.mem_readings_iff _ _).2 ⟨done, rest, hsplit, rfl⟩))
  · intro h text htext
    obtain ⟨done, rest, hsplit, rfl⟩ := (Guarded.mem_readings_iff _ _).1 htext
    exact (hone _).2 (h done rest hsplit)

end Runs

/-- A first tick that detects the victim. -/
def firstBlock : Report ℕ where
  shieldsUp := false
  detected := 1
  unblocked := 0
  allCounts := Dict.empty
  blockedUntil := Dict.empty.set victim.text 130
  allCounts_text := fun _ h => (nomatch h)
  blockedUntil_text := fun _ h => ⟨victim, ((Dict.mem_set.1 h).resolve_right fun h => (nomatch h)).symm⟩

/-- **A torn scrape**: after `update_blocked_set` and before `update_snapshot` of the first block, the text
shows one address and the number 0. -/
theorem scrape_torn : ¬ ∀ text ∈ served [firstBlock] [.writer, .writer, .reader], Consistent text := by
  intro h
  have htext : MetricsState.renderPrometheusText ⟨Dict.empty, [victim.text], 0, 1, 0, 0⟩ ∈
      served [firstBlock] [.writer, .writer, .reader] := List.mem_singleton.2 rfl
  have hpackets : ∀ ip ∈ (Dict.empty : Dict Text ℕ), PlainLabel ip := fun _ h => (nomatch h)
  have hblocked : ∀ ip ∈ [victim.text], PlainLabel ip :=
    fun ip hip => plain_of_text ⟨victim, (List.mem_singleton.1 hip).symm⟩
  have hnumber := (consistent_render hpackets hblocked).1 (h _ htext)
  exact absurd hnumber (by decide)

/-! ## The reports of the brain -/

section Brain

open Proc

variable {T : Type} {env : ℕ → Interrupt} {args : Args T} {fds : Fds} {m : MetricsState}

/-- The metrics are those of `m` after some calls. -/
def Called (m : MetricsState) (cs : List MetricsCall) (w : World T) : Prop := w.metrics = cs.foldl MetricsState.call m

/-- What is silent calls nothing. -/
theorem called_silent {α : Type} {x : Proc (World T) α} (hx : Silent x) {cs : List MetricsCall} :
    Triple (Called m cs) x (fun _ => Called m cs) fun _ => True :=
  at_pre fun _ hw => (hx _ _ _).post fun _ _ hw' => hw'.metrics.trans hw

/-- A metric is one call more. -/
theorem called_metric (c : MetricsCall) {cs : List MetricsCall} {C : World T → Prop} :
    Triple (Called m cs) (metric fun m => m.call c) (fun _ => Called m (cs ++ [c])) C := by
  refine Triple.modify fun w hw => ?_
  unfold Called at hw ⊢
  rw [List.foldl_append, ← hw]
  rfl

theorem called_logLine (line : LogLine) {cs : List MetricsCall} {C : World T → Prop} :
    Triple (Called m cs) (logLine line) (fun _ => Called m cs) C :=
  Triple.modify fun _ hw => hw

theorem called_shieldsUp (globalTokens prevGlobalTokens : ℤ) :
    Triple (Called (T := T) m []) (shieldsUp globalTokens prevGlobalTokens)
      (fun _ w => ∃ up : Bool, Called m (if up then [.incGlobalPpsExceeded] else []) w) fun _ => True := by
  unfold shieldsUp
  refine Triple.ite (fun _ => ?_) fun _ => Triple.pure fun w hw => ⟨false, hw⟩
  exact (called_metric .incGlobalPpsExceeded).bind fun _ => (called_logLine _).post fun _ w hw => ⟨true, hw⟩

/-- Some more calls of one kind. -/
def Counted (m : MetricsState) (cs : List MetricsCall) (c : MetricsCall) (w : World T) : Prop :=
  ∃ n, Called m (cs ++ List.replicate n c) w

theorem counted_metric (c : MetricsCall) {cs : List MetricsCall} {C : World T → Prop} :
    Triple (Counted m cs c) (metric fun m => m.call c) (fun _ => Counted m cs c) C := by
  refine Triple.exists_pre fun n => (called_metric c).post fun _ w hw => ⟨n + 1, ?_⟩
  rwa [List.replicate_succ', ← List.append_assoc]

theorem counted_silent {α : Type} {x : Proc (World T) α} (hx : Silent x) {cs : List MetricsCall} {c : MetricsCall} :
    Triple (Counted m cs c) x (fun _ => Counted m cs c) fun _ => True :=
  Triple.exists_pre fun n => (called_silent hx).post fun _ _ hw => ⟨n, hw⟩

theorem counted_logLine (line : LogLine) {cs : List MetricsCall} {c : MetricsCall} {C : World T → Prop} :
    Triple (Counted m cs c) (logLine line) (fun _ => Counted m cs c) C :=
  Triple.modify fun _ hw => hw

/-- The loop over the dump counts its new blocks. -/
theorem counted_detect [Add T] (now : T) (dump cache : Dict Text UInt32) (B : Dict Text T) {cs : List MetricsCall} :
    Triple (Counted m cs .incBlockEvents) (detect env args now dump cache B) (fun _ => Counted m cs .incBlockEvents)
      fun _ => True := by
  refine Triple.foldlM (I := fun _ _ => Counted m cs .incBlockEvents) (fun _ ip _ B' _ => ?_) B
  unfold detectOne
  refine Triple.ite (fun _ => ?_) fun _ => Triple.pure fun _ hw => hw
  exact (counted_metric .incBlockEvents).bind fun _ => (counted_silent (Silent.saveCheckpoint _)).bind fun _ =>
    (counted_logLine _).bind fun _ => Triple.pure fun _ hw => hw

theorem counted_unblock (ip : Text) {cs : List MetricsCall} {c : MetricsCall} :
    Triple (Counted (T := T) m cs c) (unblock env fds ip) (fun _ => Counted m cs c) fun _ => True := by
  refine at_pre fun w₁ ⟨n, hw₁⟩ => (at_unblock ip).post fun ok w hw => ⟨n, ?_⟩
  have hmetrics : w.metrics = w₁.metrics := by
    split at hw
    · obtain ⟨new, -, hat⟩ := hw
      exact hat.metrics
    · obtain ⟨d, -, -, hat⟩ := hw
      exact hat.metrics
  exact hmetrics.trans hw₁

/-- The loop over the tracked blocks counts those that are due. -/
theorem counted_expire [LE T] [DecidableLE T] (now : T) (B : Dict Text T) {cs : List MetricsCall} :
    Triple (Counted m cs .incUnblockEvents) (expire env fds now B) (fun _ => Counted m cs .incUnblockEvents)
      fun _ => True := by
  have hone : ∀ (B' : Dict Text T) ip, Triple (Counted m cs .incUnblockEvents) (expireOne env fds B' ip)
      (fun _ => Counted m cs .incUnblockEvents) fun _ => True := by
    intro B' ip
    refine (counted_unblock ip).bind fun ok => ?_
    cases ok with
    | true => exact (counted_metric .incUnblockEvents).bind fun _ => (counted_logLine _).bind fun _ =>
      Triple.pure fun _ hw => hw
    | false => exact Triple.pure fun _ hw => hw
  unfold expire
  refine Triple.ite (fun _ => Triple.pure fun _ hw => hw) fun _ => ?_
  refine (Triple.foldlM (I := fun _ _ => Counted m cs .incUnblockEvents) (fun _ ip _ B' _ => hone B' ip) B).bind
    fun B' => ?_
  exact (counted_silent (Silent.saveCheckpoint B')).bind fun _ => Triple.pure fun _ hw => hw

/-- The counters of a sight, as they are published. -/
def Sight.allCounts (s : Sight) : Dict Text ℕ := ((Dict.empty.update s.counts).update s.countsV6).mapValues UInt32.toNat

/-- A tick publishes with two calls. -/
theorem called_publish (s : Sight) (B : Dict Text T) {cs : List MetricsCall} {C : World T → Prop} :
    Triple (Called m cs) (publish args s B)
      (fun _ => Called m (cs ++ [.updateBlockedSet B.keys, .updateSnapshot s.allCounts B.size])) C := by
  unfold publish
  refine (called_metric (.updateBlockedSet B.keys)).bind fun _ =>
    (called_metric (.updateSnapshot s.allCounts B.size)).bind fun _ => ?_
  refine Triple.ite (fun _ => Triple.pure fun w hw => ?_) fun _ => (called_logLine _).post fun _ w hw => ?_
  · rwa [List.append_assoc] at hw
  · rwa [List.append_assoc] at hw

/-- The acting half of a tick makes the calls of its report. -/
theorem called_act [Add T] [LE T] [DecidableLE T] (now : T) (b : Brain T) (s : Sight) :
    Triple (Called m []) (act env args fds now b s)
      (fun b' w => ∃ (up : Bool) (d u : ℕ), Called m ((if up then [MetricsCall.incGlobalPpsExceeded] else []) ++
        List.replicate d MetricsCall.incBlockEvents ++ List.replicate u MetricsCall.incUnblockEvents ++
          [MetricsCall.updateBlockedSet b'.blockedUntil.keys,
            MetricsCall.updateSnapshot s.allCounts b'.blockedUntil.size]) w)
      fun _ => True := by
  refine (called_shieldsUp _ _).bind fun _ => Triple.exists_pre fun up => ?_
  refine Triple.pre (P := Counted m (if up then [.incGlobalPpsExceeded] else []) .incBlockEvents) ?_
    fun w hw => ⟨0, by rwa [List.replicate_zero, List.append_nil]⟩
  refine (counted_detect now _ _ _).bind fun B₁ => (counted_detect now _ _ _).bind fun B₂ =>
    Triple.exists_pre fun d => ?_
  refine Triple.pre (P := Counted m
    ((if up then [.incGlobalPpsExceeded] else []) ++ List.replicate d .incBlockEvents) .incUnblockEvents) ?_
    fun w hw => ⟨0, by rwa [List.replicate_zero, List.append_nil]⟩
  refine (counted_expire now _).bind fun B₃ => Triple.exists_pre fun u => ?_
  exact (called_publish s B₃).bind fun _ => Triple.pure fun w hw => ⟨up, d, u, hw⟩

/-! ### The labels -/

theorem Dict.mem_update {α β : Type} [DecidableEq α] {d e : Dict α β} {a : α} : a ∈ d.update e ↔ a ∈ d ∨ a ∈ e := by
  have hfold : ∀ (l : List (α × β)) (d : Dict α β), a ∈ l.foldl (fun d p => d.set p.1 p.2) d ↔
      a ∈ d ∨ a ∈ l.map Prod.fst := by
    intro l
    induction l with
    | nil => intro d; simp
    | cons p l ih =>
      intro d
      rw [List.foldl_cons, ih, Dict.mem_set, List.map_cons, List.mem_cons]
      exact ⟨fun h => h.elim (fun h => h.elim (fun h => Or.inr (Or.inl h)) Or.inl) fun h => Or.inr (Or.inr h),
        fun h => h.elim (fun h => Or.inl (Or.inr h)) fun h => h.elim (fun h => Or.inl (Or.inl h)) Or.inr⟩
  exact hfold e.items d

theorem Dict.get?_update {α β : Type} [DecidableEq α] {d e : Dict α β} {a : α} {v : β}
    (h : (d.update e).get? a = some v) :
    d.get? a = some v ∨ e.get? a = some v := by
  have hfold : ∀ (l : List (α × β)) (d : Dict α β), (l.foldl (fun d p => d.set p.1 p.2) d).get? a = some v →
      d.get? a = some v ∨ (a, v) ∈ l := by
    intro l
    induction l with
    | nil => exact fun d h => Or.inl h
    | cons p l ih =>
      intro d h
      rcases ih _ h with h | h
      · by_cases hp : a = p.1
        · rw [hp, Dict.get?_set_self] at h
          cases h
          exact Or.inr (hp ▸ List.mem_cons_self)
        · rw [Dict.get?_set_ne _ _ hp] at h
          exact Or.inl h
      · exact Or.inr (List.mem_cons_of_mem p h)
  exact (hfold e.items d h).imp_right Dict.mem_items_iff.1

theorem Dict.mem_mapValues {α β γ : Type} [DecidableEq α] {f : β → γ} {d : Dict α β} {a : α} :
    a ∈ d.mapValues f ↔ a ∈ d := by
  rw [Dict.mem_def, Dict.mem_def]
  unfold Dict.mapValues
  rw [List.map_map]
  rfl

/-- The counters' labels are address texts. -/
def Sight.CountTexts (s : Sight) : Prop := ∀ ip ∈ s.allCounts, ∃ src : Source, src.text = ip

/-- Every address a tick counts is one. -/
theorem Sight.countTexts {s : Sight} (h₄ : ∀ ip ∈ s.counts, ∃ src : Source, src.text = ip)
    (h₆ : ∀ ip ∈ s.countsV6, ∃ src : Source, src.text = ip) : s.CountTexts := by
  intro ip hip
  unfold Sight.allCounts at hip
  rw [Dict.mem_mapValues, Dict.mem_update, Dict.mem_update] at hip
  rcases hip with (hip | hip) | hip
  · exact (nomatch hip)
  · exact h₄ ip hip
  · exact h₆ ip hip

/-- What a program returns, whatever the world. -/
def Returns {α : Type} (x : Proc (World T) α) (φ : α → Prop) : Prop :=
  Triple (fun _ => True) x (fun a _ => φ a) fun _ => True

theorem returns_of_known {α : Type} {x : Proc (World T) α} {φ : α → Prop}
    (h : ∀ F ds, Triple (Known F ds ∅) x (fun a _ => φ a) fun _ => True) : Returns x φ :=
  fun w _ => h w.file w.deletes w ⟨rfl, rfl, fun _ h => (nomatch h)⟩

/-- The labels of a dump are address texts. -/
def DumpTexts (r : Option (Dict Text UInt32)) : Prop := ∀ res, r = some res → ∀ ip ∈ res, ∃ src : Source, src.text = ip

theorem dumpMapU32_texts (sel : Kernel → Dict Ip4 UInt32) : Returns (T := T) (dumpMapU32 env sel) DumpTexts := by
  refine returns_of_known fun F ds => (dumpMapU32_spec (Spared.empty env) sel).weaken (fun _ h => h)
    (fun r w h res hres ip hip => ?_) fun _ _ => trivial
  obtain ⟨a, ha⟩ := (h.2.2 res hres).1 ip hip
  exact ⟨_, ha.symm⟩

theorem dumpOpened_texts (fd : Option ℕ) (sel : Kernel → Dict Ip6 UInt32) :
    Returns (T := T) (dumpOpened env fd sel) DumpTexts := by
  refine returns_of_known fun F ds => (dumpOpened_spec (Spared.empty env) fd sel).weaken (fun _ h => h)
    (fun r w h res hres ip hip => ?_) fun _ _ => trivial
  obtain ⟨-, a, ha⟩ := (h.2 res hres).1 ip hip
  exact ⟨_, ha.symm⟩

/-- The dumps of a tick have addresses for keys. -/
theorem readMaps_texts : Returns (T := T) (readMaps env fds) Sight.CountTexts := by
  have hempty : ∀ ip ∈ (Dict.empty : Dict Text UInt32), ∃ src : Source, src.text = ip := fun _ h => (nomatch h)
  have hnone : ∀ s : Sight, s.CountTexts → Returns (T := T) (Pure.pure s) Sight.CountTexts :=
    fun _ hs => Triple.pure fun _ _ => hs
  refine Triple.bind (Q := fun r _ => DumpTexts r) (dumpMapU32_texts _) fun r => ?_
  cases r with
  -- a dump that fails leaves the labels seen so far
  | none => exact (hnone _ (Sight.countTexts hempty hempty)).pre fun _ _ => trivial
  | some blacklist =>
    refine Triple.bind (Q := fun r _ => DumpTexts r) ((dumpMapU32_texts _).pre fun _ _ => trivial) fun r => ?_
    cases r with
    | none => exact (hnone _ (Sight.countTexts hempty hempty)).pre fun _ _ => trivial
    | some counts =>
      refine Triple.pre (P := fun w => DumpTexts (some counts) ∧ True) (Triple.and_pre fun hcounts => ?_)
        fun _ h => ⟨h, trivial⟩
      have h₄ := hcounts counts rfl
      refine Triple.bind (Q := fun r _ => DumpTexts r) (dumpOpened_texts _ _) fun r => ?_
      cases r with
      | none => exact (hnone _ (Sight.countTexts h₄ hempty)).pre fun _ _ => trivial
      | some blacklistV6 =>
        refine Triple.bind (Q := fun r _ => DumpTexts r) ((dumpOpened_texts _ _).pre fun _ _ => trivial) fun r => ?_
        cases r with
        | none => exact (hnone _ (Sight.countTexts h₄ hempty)).pre fun _ _ => trivial
        | some countsV6 =>
          refine Triple.pre (P := fun w => DumpTexts (some countsV6) ∧ True) (Triple.and_pre fun hcountsV6 => ?_)
            fun _ h => ⟨h, trivial⟩
          have htokens : Returns (T := T) (getGlobalTokens env) fun _ => True :=
            returns_of_known fun F ds =>
              (getGlobalTokens_spec (Spared.empty env)).weaken (fun _ h => h) (fun _ _ _ => trivial)
              fun _ _ => trivial
          exact htokens.bind fun _ => Triple.pure fun _ _ => Sight.countTexts h₄ (hcountsV6 countsV6 rfl)

/-- **The calls of a tick are those of a report** of the blocks that are then tracked. -/
theorem tick_reports [Add T] [Sub T] [LE T] [DecidableLE T] {now : T} {b b' : Brain T} {w w' : World T}
    (hB : Canonical b'.blockedUntil.get?) (htick : tick env args fds now b w = (w', some b')) :
    ∃ r : Report T, r.blockedUntil = b'.blockedUntil ∧ w'.metrics = r.calls.foldl MetricsState.call w.metrics := by
  -- looking calls no metric, and sees only address texts
  have hlook :
    Triple (Called w.metrics []) (look env args fds now b) (fun r v => Sight.CountTexts r.2 ∧ Called w.metrics [] v)
      fun _ => True := by
    intro v hv
    have hquiet : Silent (look env args fds now b) := Silent.look args fds now b
    have hsilent := called_silent hquiet v hv
    have htexts : Returns (T := T) (look env args fds now b) fun r => r.2.CountTexts :=
      Triple.bind (Q := fun _ _ => True)
        (fun v _ => by cases refreshAllowlist env args fds now b v with | mk v r => cases r <;> trivial)
        fun b => readMaps_texts.bind fun s => Triple.pure fun _ hs => hs
    have hreturn := htexts v trivial
    cases hx : look env args fds now b v with
    | mk v' r =>
      rw [hx] at hsilent hreturn
      cases r with
      | none => exact trivial
      | some r => exact ⟨hreturn, hsilent⟩
  -- acting makes the calls, ending with the two that publish
  have hbrain : Triple (Called w.metrics []) (tick env args fds now b) (fun b' w' => Canonical b'.blockedUntil.get? →
      ∃ r : Report T, r.blockedUntil = b'.blockedUntil ∧ w'.metrics = r.calls.foldl MetricsState.call w.metrics)
        fun _ => True := by
    refine hlook.bind fun r => Triple.and_pre fun htexts => (called_act now r.1 r.2).post fun b' w' hw' hB => ?_
    obtain ⟨up, d, u, hcalled⟩ := hw'
    refine ⟨⟨up, d, u, r.2.allCounts, b'.blockedUntil, htexts, fun ip hip => ?_⟩, rfl, hcalled⟩
    obtain ⟨s, hs⟩ := hB ip (by rw [Ne, Dict.get?_eq_none_iff, not_not]; exact hip)
    exact ⟨s, hs.symm⟩
  exact hbrain.of_some (Eq.refl w.metrics) htick hB

variable [Add T] [Sub T] [Zero T] [LE T] [DecidableLE T] {sys₀ : System T} {acts : List (SystemAct T)}

/-- A running process has told the metrics some reports, the last of them about its tracked blocks. -/
def System.Reported (sys : System T) : Prop :=
  ∀ b, sys.proc = some b → ∃ reports : List (Report T),
    sys.world.metrics = (reports.flatMap Report.calls).foldl MetricsState.call MetricsState.init ∧
      ∀ r ∈ reports.getLast?, r.blockedUntil = b.blockedUntil

/-- A step leaves the exporter at a report. -/
theorem System.reported_step {sys : System T} (hg : sys.Good env) (h : sys.Reported) (a : SystemAct T) :
    (sys.step env args fds a).Reported := by
  have hgood : (sys.step env args fds a).Good env := System.good_step hg a
  have hcanonical := hgood.proc
  cases a with
  | start =>
    cases hp : sys.proc with
    | some b =>
      have hstep : sys.step env args fds .start = sys := by unfold System.step; rw [hp]
      rw [hstep]
      exact h
    | none =>
      have hstep : sys.step env args fds .start =
          { sys with world := (start env fds sys.world).1, proc := (start env fds sys.world).2 } := by
        unfold System.step; rw [hp]
      -- a start begins new metrics: no report yet
      have hat := at_start env fds sys.world
      rw [hstep]
      intro b hb
      cases hx : start env fds sys.world with
      | mk w r =>
        rw [hx] at hb hat
        subst hb
        exact ⟨[], hat.metrics, fun r hr => (nomatch hr)⟩
  | tick now =>
    cases hp : sys.proc with
    | none =>
      have hstep : sys.step env args fds (.tick now) = sys := by unfold System.step; rw [hp]
      rw [hstep]
      exact h
    | some b =>
      have hstep : sys.step env args fds (.tick now) =
          { sys with
            world := (tick env args fds now b sys.world).1
            proc := (tick env args fds now b sys.world).2 } := by
        unfold System.step; rw [hp]
      rw [hstep] at hcanonical ⊢
      intro b' hb'
      -- a tick adds one report behind those before
      obtain ⟨reports, hmetrics, -⟩ := h b hp
      obtain ⟨r, hr, hcalls⟩ := tick_reports (hcanonical b' hb') (Prod.ext rfl hb')
      refine ⟨reports ++ [r], ?_, fun r' hr' => ?_⟩
      · rw [List.flatMap_append, List.foldl_append, ← hmetrics, List.flatMap_singleton]
        exact hcalls
      · rw [List.getLast?_concat] at hr'
        rw [← Option.some.inj hr']
        exact hr
  | stop => exact fun b hb => (nomatch hb)
  | reboot cpus time => exact fun b hb => (nomatch hb)

variable (args fds acts) in
/-- **The metrics of a running brain** are those after the calls of some reports. -/
theorem reported_at (hp : sys₀.proc = none) (hc : Canonical sys₀.blocked) {n : ℕ} (hn : n ≤ acts.length) :
    (sysAt env args fds sys₀ acts n).Reported := by
  induction n with
  | zero =>
    rw [sysAt_zero]
    intro b hb
    rw [hp] at hb
    cases hb
  | succ n ih =>
    rw [sysAt_succ _ _ _ _ _ (by omega)]
    exact System.reported_step (good_at args fds acts (.of_stopped env hc hp) (by omega)) (ih (by omega)) _

/-- The brain's first tick on a host whose kernel has blocked the victim tells what `firstBlock` does. -/
example : let m := (sysAt calm thirtySeconds allOpen (victimListed ℕ) [.start, .tick 100] 2).world.metrics
    m.blockedIpsSet = firstBlock.blockedUntil.keys ∧ m.blockedIps = firstBlock.blockedUntil.size ∧
      m.blockEvents = firstBlock.detected ∧ m.packetsByIp = firstBlock.allCounts := by
  decide +kernel

end Brain

end FluxGuard
