import FluxGuard.Model.Dashboard
import FluxGuard.Proof.Meter
import FluxGuard.Proof.Scrape
import FluxGuard.Proof.Shields

/-!
# The packet rate on the dashboard

A count goes from the kernel's `u32` meter through the brain's snapshot, the exporter's text and
the parser to the dashboard, which subtracts it as an integer.

* `fetched_of_tick`: the text that is served after a tick shows meter entries which were there while
  the brain read the maps.
* `table_row`: a line of the table holds the count just read and its difference to the one before.
* `rate_iff`: the difference is the number of packets metered in between if and only if there are none,
  or the turn before held a count of the source and the meter did not wrap.
-/

namespace FluxGuard

/-- The metrics text of a fetch, or the empty text of a failed one. Where it has a count of the source it
is the meter entry that the brain read in the kernel state `k`. -/
def Fetched (k : Kernel) (s : Source) (text : Text) : Prop :=
  text = [] ∨ ∃ m : MetricsState, m.Labelled ∧ text = m.renderPrometheusText ∧
    ∀ v, m.packetsByIp.get? s.text = some v → (k.view s).meter.map UInt32.toNat = some v

/-! ## From the kernel to the page -/

/-- The kernel has been in a state with `φ` on its way from `K` to `k`. -/
def Passed (K : Kernel) (φ : Kernel → Prop) (k : Kernel) : Prop := ∃ es es', φ (run K es) ∧ run (run K es) es' = k

/-- What was passed stays passed. -/
theorem Passed.run {K k : Kernel} {φ : Kernel → Prop} (h : Passed K φ k) (fs : List Event) :
    Passed K φ (FluxGuard.run k fs) := by
  obtain ⟨es, es', hφ, rfl⟩ := h
  exact ⟨es, es' ++ fs, hφ, run_append ..⟩

/-- The source of this address has this meter entry. -/
def MeterAt (ip : Text) (v : UInt32) (k : Kernel) : Prop := ∃ s : Source, s.text = ip ∧ (k.view s).meter = some v

/-- The counts of a dump are meter entries that were there on the way from `K` to `k`. -/
structure Observed (K : Kernel) (d : Dict Text UInt32) (k : Kernel) : Prop where
  since : ∃ es, run K es = k
  values : ∀ ip v, d.get? ip = some v → Passed K (MeterAt ip v) k

namespace Observed

variable {K k : Kernel} {d : Dict Text UInt32}

theorem empty (K : Kernel) : Observed K Dict.empty K := ⟨⟨[], rfl⟩, fun _ _ h => (nomatch h)⟩

/-- An observation stays one while the kernel goes on. -/
theorem run (h : Observed K d k) (fs : List Event) : Observed K d (FluxGuard.run k fs) := by
  obtain ⟨es, hes⟩ := h.since
  refine ⟨⟨es ++ fs, by rw [run_append, hes]⟩, ?_⟩
  intro ip v hv
  exact (h.values ip v hv).run fs

/-- Of an observation the dict may be dropped. -/
theorem forget (h : Observed K d k) : Observed K Dict.empty k := ⟨h.since, fun _ _ h => (nomatch h)⟩

/-- A meter as it is now may be put in the dict. -/
theorem set (h : Observed K d k) {ip : Text} {v : UInt32} (hv : MeterAt ip v k) : Observed K (d.set ip v) k := by
  obtain ⟨es, rfl⟩ := h.since
  refine ⟨⟨es, rfl⟩, ?_⟩
  intro ip' v' hv'
  by_cases hip : ip' = ip
  · subst hip
    rw [Dict.get?_set_self] at hv'
    cases hv'
    exact ⟨es, [], hv, rfl⟩
  · rw [Dict.get?_set_ne _ _ hip] at hv'
    exact h.values ip' v' hv'

/-- The lookups of a dump of a meter map. -/
theorem lookups {α : Type} [DecidableEq α] {text : α → Text} {sel : Kernel → Dict α UInt32}
    (hsel : ∀ k a v, (sel k).get? a = some v → MeterAt (text a) v k) (keys : List (List Event × α))
    (h : Observed K d k) :
    Observed K (keys.foldl (lookup text sel) (k, d)).2 (keys.foldl (lookup text sel) (k, d)).1 := by
  induction keys generalizing k d with
  | nil => exact h
  | cons q keys ih =>
    rw [List.foldl_cons]
    cases hget : (sel (FluxGuard.run k q.1)).get? q.2 with
    | none =>
      have hone : lookup text sel (k, d) q = (FluxGuard.run k q.1, d) := by
        unfold lookup
        dsimp only
        rw [hget]
      rw [hone]
      exact ih (h.run q.1)
    | some v =>
      have hone : lookup text sel (k, d) q = (FluxGuard.run k q.1, d.set (text q.2) v) := by
        unfold lookup
        dsimp only
        rw [hget]
      rw [hone]
      exact ih ((h.run q.1).set (hsel _ _ _ hget))

end Observed

section Page

open Proc

variable {T : Type} {env : ℕ → Interrupt} {args : Args T} {fds : Fds} {K : Kernel} {d : Dict Text UInt32}

/-- What stays true however the host goes on is true after a program. -/
theorem stable_onward {α : Type} {x : Proc (World T) α} (hx : Moves Onward x) {I : Kernel → Prop}
    (hI : ∀ k es, I k → I (run k es)) : Triple (fun w => I w.kernel) x (fun _ w => I w.kernel) fun _ => True := by
  intro w hw
  obtain ⟨es, hes⟩ := (hx w).history
  have hafter : I (x w).1.kernel := hes ▸ hI w.kernel es hw
  cases h : x w with
  | mk w' r =>
    rw [h] at hafter
    cases r with
    | some a => exact hafter
    | none => exact trivial

/-- What only moves the kernel on keeps the observation. -/
theorem observed_onward {α : Type} {x : Proc (World T) α} (hx : Moves Onward x) :
    Triple (fun w => Observed K d w.kernel) x (fun _ w => Observed K d w.kernel) fun _ => True :=
  stable_onward hx fun _ es h => h.run es

/-- A dump of a meter map, with what was observed before it. -/
theorem observed_dumpMap {α : Type} [DecidableEq α] {text : α → Text} (keys : Interrupt → List (List Event × α))
    {sel : Kernel → Dict α UInt32} (hsel : ∀ k a v, (sel k).get? a = some v → MeterAt (text a) v k) :
    Triple (fun w : World T => Observed K d w.kernel) (dumpMap env text keys sel)
      (fun r w => Observed K d w.kernel ∧ ∀ res, r = some res → Observed K res w.kernel) fun _ => True := by
  refine (observed_onward Moves.get).bind fun w₀ => ?_
  refine (observed_onward (onward_syscall .dump)).bind fun ok => ?_
  cases ok with
  | false => exact Triple.pure fun w hw => ⟨hw, fun res h => (nomatch h)⟩
  | true =>
    intro w hw
    obtain ⟨es, hes⟩ := history_lookups text sel (keys (env w₀.turn)) w.kernel Dict.empty
    refine ⟨?_, ?_⟩
    · exact hes ▸ hw.run es
    · intro res hres
      cases hres
      exact hw.forget.lookups hsel (keys (env w₀.turn))

/-- A dump of an opened map observes it. -/
theorem observed_dumpOpened (fd : Option ℕ) :
    Triple (fun w : World T => Observed K d w.kernel) (dumpOpened env fd fun k => k.v6.meterMap)
      (fun r w => Observed K d w.kernel ∧ ∀ res, r = some res → Observed K res w.kernel) fun _ => True := by
  refine Triple.ite (fun _ => ?_) fun _ => Triple.pure fun w hw => ⟨hw, fun res hres => ?_⟩
  · exact observed_dumpMap Interrupt.keysV6 fun k a v hv => ⟨.v6 a, rfl, hv⟩
  · cases hres
    exact hw.forget

/-- The counts of a sight are meter entries that were there while the brain read. -/
def Sight.Observed (K : Kernel) (s : Sight) (k : Kernel) : Prop :=
  FluxGuard.Observed K s.counts k ∧ FluxGuard.Observed K s.countsV6 k

/-- The reading half of a tick observes all four maps. -/
theorem observed_readMaps :
    Triple (fun w : World T => Observed K Dict.empty w.kernel) (readMaps env fds) (fun s w => s.Observed K w.kernel)
      fun _ => True := by
  refine (observed_onward (onward_dumpMap _ _ _)).bind fun r => ?_
  cases r with
  | none => exact Triple.pure fun w hw => ⟨hw, hw⟩
  | some blacklist =>
    have hcounts : ∀ (k : Kernel) (a : Ip4) (v : UInt32), k.v4.meterMap.get? a = some v → MeterAt (keyToIp a) v k :=
      fun k a v hv => ⟨.v4 a, rfl, hv⟩
    refine (observed_dumpMap Interrupt.keys hcounts).bind fun r => ?_
    cases r with
    | none => exact Triple.pure fun w hw => ⟨hw.1, hw.1⟩
    | some counts =>
      refine Triple.pre (P := fun w => Observed K counts w.kernel) ?_ fun w hw => hw.2 counts rfl
      refine (observed_onward (onward_dumpOpened _ _)).bind fun r => ?_
      cases r with
      | none => exact Triple.pure fun w hw => ⟨hw, hw.forget⟩
      | some blacklistV6 =>
        refine (observed_dumpOpened _).bind fun r => ?_
        cases r with
        | none => exact Triple.pure fun w hw => ⟨hw.1, hw.1.forget⟩
        | some countsV6 =>
          refine Triple.pre (P := fun w => Observed K counts w.kernel ∧ Observed K countsV6 w.kernel) ?_
            fun w hw => ⟨hw.1, hw.2 countsV6 rfl⟩
          exact (stable_onward (I := fun k => Observed K counts k ∧ Observed K countsV6 k) onward_getGlobalTokens
            fun _ es h => ⟨h.1.run es, h.2.run es⟩).bind fun _ => Triple.pure fun w hw => hw

/-- A published count was dumped. -/
theorem Sight.get?_allCounts {s : Sight} {ip : Text} {n : ℕ} (h : s.allCounts.get? ip = some n) :
    ∃ v, v.toNat = n ∧ (s.counts.get? ip = some v ∨ s.countsV6.get? ip = some v) := by
  unfold Sight.allCounts at h
  rw [Dict.get?_mapValues, Option.map_eq_some_iff] at h
  obtain ⟨v, hv, rfl⟩ := h
  refine ⟨v, rfl, ?_⟩
  rcases Dict.get?_update hv with hv | hv
  · rcases Dict.get?_update hv with hv | hv
    · exact (nomatch hv)
    · exact Or.inl hv
  · exact Or.inr hv

/-- What a tick reads: address texts, with meter entries that were there on the way. -/
theorem observed_look [Sub T] [LE T] [DecidableLE T] (now : T) (b : Brain T) :
    Triple (fun w : World T => Observed K Dict.empty w.kernel) (look env args fds now b)
      (fun r w => r.2.CountTexts ∧ r.2.Observed K w.kernel) fun _ => True := by
  refine (observed_onward (onward_refreshAllowlist now b)).bind fun b => ?_
  refine Triple.bind (Q := fun s w => s.CountTexts ∧ s.Observed K w.kernel) ?_ fun s => Triple.pure fun _ h => h
  intro w hw
  have hreturns : Returns (T := T) (readMaps env fds) Sight.CountTexts := readMaps_texts
  have hobserves : Triple (fun w : World T => Observed K Dict.empty w.kernel) (readMaps env fds)
    (fun s w => s.Observed K w.kernel) fun _ => True := observed_readMaps
  have htexts := hreturns w trivial
  have hobserved := hobserves w hw
  cases hx : readMaps env fds w with
  | mk w' r =>
    rw [hx] at htexts hobserved
    cases r with
    | none => trivial
    | some s => exact ⟨htexts, hobserved⟩

/-- What a tick publishes of what it has read. -/
theorem published_of_act [Add T] [LE T] [DecidableLE T] {now : T} {b b' : Brain T} {s : Sight} {w w' : World T}
    (h : act env args fds now b s w = (w', some b')) :
    w'.metrics.packetsByIp = s.allCounts ∧ w'.metrics.blockedIpsSet = b'.blockedUntil.keys := by
  obtain ⟨up, d, u, hcalled⟩ := (called_act now b s).of_some (Eq.refl w.metrics) h
  unfold Called at hcalled
  rw [hcalled, List.foldl_append]
  exact ⟨rfl, rfl⟩

/-- A snapshot is fetched in any state that has its count of the source as the meter entry. -/
theorem fetched_of_count {k : Kernel} {s : Source} {m : MetricsState} (hlabels : m.Labelled)
    (h : ∀ n, m.packetsByIp.get? s.text = some n → (k.view s).meter.map UInt32.toNat = some n) :
    Fetched k s m.renderPrometheusText := Or.inr ⟨m, hlabels, rfl, h⟩

/-- **From the kernel to the page.** What the exporter serves after a tick is text fetched for every source: its
count, if there is one, is a meter entry that was there on the way of the kernel through that tick. -/
theorem fetched_of_tick [Add T] [Sub T] [LE T] [DecidableLE T] {now : T} {b b' : Brain T} {w w' : World T}
    (hB : Canonical b'.blockedUntil.get?) (htick : tick env args fds now b w = (w', some b')) (s : Source) :
    Passed w.kernel (fun k => Fetched k s w'.metrics.renderPrometheusText) w'.kernel := by
  obtain ⟨v, ⟨b₁, sight⟩, -, -, hlook, -⟩ := bind_isSome (x := look env args fds now b) (by rw [← tick, htick]; rfl)
  unfold tick at htick
  rw [bind_some hlook] at htick
  change act env args fds now b₁ sight v = (w', some b') at htick
  obtain ⟨htexts, hcounts, hcountsV6⟩ := (observed_look now b).of_some (Observed.empty w.kernel) hlook
  obtain ⟨hpackets, hset⟩ := published_of_act htick
  have hmoves := (act_moves env args fds now b₁ v sight).1
  rw [htick] at hmoves
  obtain ⟨fs, hfs⟩ := hmoves
  have hlabels : w'.metrics.Labelled := by
    constructor
    · rw [hpackets]
      exact htexts
    · intro ip hip
      rw [hset] at hip
      obtain ⟨s, hs⟩ := hB ip (by rw [Ne, Dict.get?_eq_none_iff, not_not]; exact hip)
      exact ⟨s, hs.symm⟩
  cases hn : w'.metrics.packetsByIp.get? s.text with
  | none =>
    -- no count: any state on the way will do
    obtain ⟨es, hes⟩ := hcounts.since
    refine ⟨es ++ fs, [], fetched_of_count hlabels ?_, ?_⟩
    · intro n hn'
      rw [hn] at hn'
      cases hn'
    · show run w.kernel (es ++ fs) = w'.kernel
      rw [run_append, hes, hfs]
  | some n =>
    have hmeter : ∃ v, v.toNat = n ∧ Passed w.kernel (MeterAt s.text v) w'.kernel := by
      rw [hpackets] at hn
      obtain ⟨v, hv, hdump⟩ := Sight.get?_allCounts hn
      refine ⟨v, hv, ?_⟩
      rw [← hfs]
      rcases hdump with hdump | hdump
      · exact (hcounts.values _ _ hdump).run fs
      · exact (hcountsV6.values _ _ hdump).run fs
    obtain ⟨v, rfl, es, es', ⟨s', htext, hs'⟩, hes⟩ := hmeter
    refine ⟨es, es', fetched_of_count hlabels ?_, hes⟩
    intro n hn'
    rw [← Source.text_injective htext, hs', ← hn', hn]
    rfl

end Page

/-! ## The table -/

/-- An empty text parses to the same as a failed fetch. -/
theorem parseFetched_eq (text : Text) : parseFetched text = parseMetrics text := by
  unfold parseFetched
  split
  · subst_vars
    rfl
  · rfl

/-- A row of the top is a row of the packets. -/
theorem mem_top {packets : Dict Text ℤ} {ip : Text} {cnt : ℤ} (h : (ip, cnt) ∈ top packets) :
    packets.get? ip = some cnt := by
  have hsorted := List.mem_of_mem_take h
  exact Dict.mem_items_iff.1 ((List.mergeSort_perm _ _).mem_iff.1 hsorted)

/-- A row shows the count that was read and its difference from the one before. -/
theorem table_row {p : Parsed} {prev : Dict Text ℤ} {row : Row} (h : row ∈ rows p prev) :
    p.packets.get? row.ip = some row.cnt ∧ row.diff = row.cnt - (prev.get? row.ip).getD row.cnt := by
  obtain ⟨⟨ip, cnt⟩, hmem, rfl⟩ := List.mem_map.1 h
  exact ⟨mem_top hmem, rfl⟩

/-- A turn of the loop renders the counts it has read, and keeps them for the next. -/
theorem refresh_spec {prev packets : Dict Text ℤ} {text : Text} {screen : Screen}
    (h : refresh prev text = some (screen, packets)) :
    ∃ p, parseFetched text = some p ∧ screen.table = rows p prev ∧ packets = p.packets := by
  unfold refresh at h
  cases hp : parseFetched text with
  | none =>
    rw [hp] at h
    cases h
  | some p =>
    rw [hp] at h
    cases h
    exact ⟨p, rfl, rfl, rfl⟩

/-- **A count that the dashboard holds is a meter value.** -/
theorem Fetched.count {k : Kernel} {s : Source} {text : Text} (hf : Fetched k s text) {p : Parsed}
    (hp : parseFetched text = some p) {cnt : ℤ}
    (h : p.packets.get? s.text = some cnt) : cnt = (((k.view s).meter.getD 0).toNat : ℤ) := by
  rcases hf with rfl | ⟨m, hm, rfl, hcount⟩
  · cases hp
    cases h
  · have hparse := parseMetrics_render (fun ip hip => plain_of_text (hm.packets ip hip)) fun ip hip =>
      plain_of_text (hm.blocked ip hip)
    rw [parseFetched_eq, hparse] at hp
    cases hp
    rw [get?_parsed, Option.map_eq_some_iff] at h
    obtain ⟨v, hv, rfl⟩ := h
    obtain ⟨c, hc, rfl⟩ := Option.map_eq_some_iff.1 (hcount v hv)
    rw [hc]
    rfl

/-- **The displayed rate.** Two consecutive turns of the dashboard's loop, of which the second shows the source,
with `n < 2^32` packets of it metered between the two reads of its entry: the difference that is divided by `dt`
is `n`, and no rate is negative, if and only if `n = 0` or the first turn held a count of the source and that
count plus `n` still fits the meter. -/
theorem rate_iff {prev₀ prev₁ prev₂ : Dict Text ℤ} {text₁ text₂ : Text} {screen₁ screen₂ : Screen} {k : Kernel}
    {es : List Event} {s : Source} (h₁ : refresh prev₀ text₁ = some (screen₁, prev₁))
    (h₂ : refresh prev₁ text₂ = some (screen₂, prev₂)) (hf₁ : Fetched k s text₁) (hf₂ : Fetched (run k es) s text₂)
    (hstays : ∀ e ∈ es, e ≠ evictMeter s) (hn : metered s k es < 2 ^ 32) {row : Row} (hrow : row ∈ screen₂.table)
    (hip : row.ip = s.text) :
    (row.diff = metered s k es ∧ ∀ dt, 0 ≤ row.pps dt) ↔
      metered s k es = 0 ∨ s.text ∈ prev₁ ∧ ((k.view s).meter.getD 0).toNat + metered s k es < 2 ^ 32 := by
  obtain ⟨p₁, hp₁, -, rfl⟩ := refresh_spec h₁
  obtain ⟨p₂, hp₂, htable, -⟩ := refresh_spec h₂
  rw [htable] at hrow
  obtain ⟨hcnt, hdiff⟩ := table_row hrow
  rw [hip] at hcnt hdiff
  have hcnt₂ := hf₂.count hp₂ hcnt
  -- the meter itself counts modulo `2^32`
  have hmeter : (((run k es).view s).meter.getD 0).toNat =
      (((k.view s).meter.getD 0).toNat + metered s k es) % 2 ^ 32 := by
    rw [(meter_run k hstays).1, UInt32.toNat_add, UInt32.toNat_ofNat', Nat.add_mod_mod]
  have hrate : (row.diff = metered s k es ∧ ∀ dt, 0 ≤ row.pps dt) ↔ row.diff = metered s k es := by
    constructor
    · rintro ⟨h, -⟩
      exact h
    · intro h
      refine ⟨h, ?_⟩
      intro dt
      unfold Row.pps
      rw [h]
      split
      · rename_i hdt
        exact div_nonneg (by positivity) hdt.le
      · exact le_rfl
  have hlt := ((k.view s).meter.getD 0).toNat_lt
  rw [hrate, hdiff]
  cases hprev : p₁.packets.get? s.text with
  | none =>
    -- a source that the turn before did not show gets the difference zero
    have hnot : s.text ∉ p₁.packets := Dict.get?_eq_none_iff.1 hprev
    simp only [Option.getD_none, sub_self, hnot, false_and, or_false]
    omega
  | some cnt₁ =>
    have hmem : s.text ∈ p₁.packets := Dict.mem_iff_isSome.2 (by rw [hprev]; rfl)
    have hcnt₁ := hf₁.count hp₁ hprev
    simp only [Option.getD_some, hmem, true_and]
    omega

/-! ### A meter that wraps -/

/-- A snapshot with one count. -/
def showing (n : ℕ) : MetricsState := ⟨Dict.empty.set victim.text n, [], 0, 0, 0, 0⟩

/-- A kernel whose meter has counted so many packets of the victim. -/
def counting (c : UInt32) : Kernel :=
  { Kernel.init 1 with
    v4 := { (IpMaps.empty : IpMaps Ip4 MAX_ENTRIES 1024) with meterMap := Dict.empty.set 0x0501000A c } }

theorem labelled_showing (n : ℕ) : (showing n).Labelled where
  packets ip hip := by
    rcases Dict.mem_set.1 hip with rfl | hip
    · exact ⟨victim, rfl⟩
    · cases hip
  blocked ip hip := by cases hip

/-- A page that shows the meter of the source is fetched as one. -/
theorem fetched_showing {k : Kernel} {n : ℕ} (h : (k.view victim).meter.map UInt32.toNat = some n) :
    Fetched k victim (showing n).renderPrometheusText := by
  refine Or.inr ⟨showing n, labelled_showing n, rfl, ?_⟩
  intro v hv
  rw [h, ← hv]
  exact (Dict.get?_set_self _ _ _).symm

/-- What a turn of the loop shows of such a snapshot. -/
theorem refresh_showing (prev : Dict Text ℤ) (n : ℕ) :
    ∃ screen packets row, refresh prev (showing n).renderPrometheusText = some (screen, packets) ∧
      packets.get? victim.text = some (n : ℤ) ∧ row ∈ screen.table ∧ row.ip = victim.text ∧
      row.diff = n - (prev.get? victim.text).getD n := by
  have hlabels := labelled_showing n
  have hparse := parseMetrics_render (fun ip hip => plain_of_text (hlabels.packets ip hip)) fun ip hip =>
    plain_of_text (hlabels.blocked ip hip)
  have hitems : (showing n).parsed.packets.items = [(victim.text, (n : ℤ))] := by
    have hsorted : sortedItems (showing n).packetsByIp = [(victim.text, n)] := List.mergeSort_singleton _
    unfold MetricsState.parsed
    rw [hsorted]
    rfl
  have hrow : (victim.text, (n : ℤ)) ∈ top (showing n).parsed.packets := by
    unfold top
    rw [hitems, List.mergeSort_singleton]
    exact List.mem_singleton.2 rfl
  unfold refresh
  rw [parseFetched_eq, hparse]
  exact ⟨_, _, _, rfl, Dict.mem_items_iff.1 (by rw [hitems]; exact List.mem_singleton.2 rfl),
    List.mem_map_of_mem hrow, rfl, rfl⟩

theorem stays_twoFrames (s : Source) : ∀ e ∈ twoFrames, e ≠ evictMeter s := by
  intro e he
  simp only [twoFrames, List.mem_cons, List.not_mem_nil, or_false] at he
  rcases he with rfl | rfl
  · exact frame_ne_evictMeter s
  · exact frame_ne_evictMeter s

/-- Five packets, and two more. -/
theorem rate_iff_two :
    ∃ screen₂ prev₁ prev₂, refresh prev₁ (showing 7).renderPrometheusText = some (screen₂, prev₂) ∧
      ∃ row ∈ screen₂.table, row.ip = victim.text ∧ row.diff = 2 ∧ ∀ dt, 0 ≤ row.pps dt := by
  obtain ⟨screen₁, prev₁, -, h₁, hprev, -⟩ := refresh_showing Dict.empty 5
  obtain ⟨screen₂, prev₂, row, h₂, -, hrow, hip, -⟩ := refresh_showing prev₁ 7
  have hcount : metered victim (counting 5) twoFrames = 2 := by decide +kernel
  have hf₁ : Fetched (counting 5) victim (showing 5).renderPrometheusText := fetched_showing (by decide)
  have hf₂ : Fetched (run (counting 5) twoFrames) victim (showing 7).renderPrometheusText :=
    fetched_showing (by decide +kernel)
  have hshown : victim.text ∈ prev₁ := Dict.mem_iff_isSome.2 (by rw [hprev]; rfl)
  obtain ⟨hdiff, hpps⟩ := (rate_iff h₁ h₂ hf₁ hf₂ (stays_twoFrames victim) (by rw [hcount]; decide) hrow hip).2
    (Or.inr ⟨hshown, by rw [hcount]; decide⟩)
  rw [hcount] at hdiff
  exact ⟨screen₂, prev₁, prev₂, h₂, row, hrow, hip, hdiff, hpps⟩

/-- Two packets that take the meter over its end: the dashboard shows `-4294967294`. -/
theorem rate_wraps :
    ¬ ∀ (prev₀ prev₁ prev₂ : Dict Text ℤ) (text₁ text₂ : Text) (screen₁ screen₂ : Screen) (k : Kernel) (es : List Event)
        (s : Source), refresh prev₀ text₁ = some (screen₁, prev₁) → refresh prev₁ text₂ = some (screen₂, prev₂) →
      Fetched k s text₁ → Fetched (run k es) s text₂ → (∀ e ∈ es, e ≠ evictMeter s) → metered s k es < 2 ^ 32 →
      ∀ row ∈ screen₂.table, row.ip = s.text → row.diff = metered s k es ∧ ∀ dt, 0 ≤ row.pps dt := by
  intro h
  obtain ⟨screen₁, prev₁, -, h₁, hprev, -⟩ := refresh_showing Dict.empty 4294967294
  obtain ⟨screen₂, prev₂, row, h₂, -, hrow, hip, hdiff⟩ := refresh_showing prev₁ 0
  have hcount : metered victim (counting 4294967294) twoFrames = 2 := by decide +kernel
  have hf₁ : Fetched (counting 4294967294) victim (showing 4294967294).renderPrometheusText :=
    fetched_showing (by decide)
  have hf₂ : Fetched (run (counting 4294967294) twoFrames) victim (showing 0).renderPrometheusText :=
    fetched_showing (by decide +kernel)
  have hrate :=
    (h _ _ _ _ _ _ _ _ _ victim h₁ h₂ hf₁ hf₂ (stays_twoFrames victim) (by rw [hcount]; decide) row hrow hip).1
  rw [hcount, hdiff, hprev] at hrate
  exact absurd hrate (by decide)

end FluxGuard
