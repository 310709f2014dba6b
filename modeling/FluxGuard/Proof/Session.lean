import FluxGuard.Data.Excerpt
import FluxGuard.Model.Session
import FluxGuard.Proof.Cause
import FluxGuard.Proof.Dashboard
import FluxGuard.Proof.Metrics

/-!
# What the dashboard shows over a session

From the exporter's state and the ring buffer to the pages.

* `shows_turn`: a page is the twelve greatest counts of the state it was served, with the marks of the
  blocked and the differences to the page before.
* `accumulated_run`: what a session keeps of the events are the last 50 of all there were.
* `session_shows`: so every page of a session shows its state and the last eight events.
* `marked_with_cause`: along a run of the host, a page marks no address as blocked without a cause.
-/

namespace FluxGuard

/-- The count of an address in a state; without a state there is none. -/
def countOf (m : Option MetricsState) (ip : Text) : Option ℕ := m.bind fun m => m.packetsByIp.get? ip

/-- What `parse_metrics` reads of a state, and of nothing. -/
def readOf (m : Option MetricsState) : Parsed := (m.map MetricsState.parsed).getD ⟨Dict.empty, ∅, 0, 0, 0, 0⟩

/-- A page shows a state, with the state of the page before. -/
structure Screen.Shows (screen : Screen) (m prev : Option MetricsState) : Prop where
  length : screen.table.length = min 12 ((m.map fun m => m.packetsByIp.size).getD 0)
  distinct : (screen.table.map Row.ip).Nodup
  sorted : screen.table.Pairwise fun r r' => r'.cnt ≤ r.cnt
  rows : ∀ r ∈ screen.table, ∃ n : ℕ, countOf m r.ip = some n ∧ r.cnt = n ∧
    (r.blocked = true ↔ ∃ m', m = some m' ∧ r.ip ∈ m'.blockedIpsSet) ∧ r.diff = n - ((countOf prev r.ip).getD n : ℕ)
  /-- No address that is left out has more packets than one that is shown. -/
  greatest : ∀ ip n, countOf m ip = some n → (∃ r ∈ screen.table, r.ip = ip) ∨ ∀ r ∈ screen.table, (n : ℤ) ≤ r.cnt
  totalIps : screen.totalIps = (m.map fun m => m.packetsByIp.size).getD 0
  blockedCount : screen.blockedCount = ((m.map MetricsState.blockedIps).getD 0 : ℕ)
  shieldsUp : screen.shieldsUp = ((m.map MetricsState.globalPpsExceeded).getD 0 : ℕ)
  blockEvents : screen.blockEvents = ((m.map MetricsState.blockEvents).getD 0 : ℕ)
  unblockEvents : screen.unblockEvents = ((m.map MetricsState.unblockEvents).getD 0 : ℕ)

/-! ## One turn -/

/-- A count that is read is the count that was served. -/
theorem get?_readOf (m : Option MetricsState) (ip : Text) :
    (readOf m).packets.get? ip = (countOf m ip).map Int.ofNat := by
  cases m with
  | none => rfl
  | some m => exact get?_parsed m ip

theorem size_readOf (m : Option MetricsState) :
    (readOf m).packets.size = (m.map fun m => m.packetsByIp.size).getD 0 := by
  cases m with
  | none => rfl
  | some m =>
    have hmem : ∀ ip, ip ∈ m.parsed.packets.keys ↔ ip ∈ m.packetsByIp.keys := by
      intro ip
      show ip ∈ m.parsed.packets ↔ ip ∈ m.packetsByIp
      rw [Dict.mem_iff_isSome, Dict.mem_iff_isSome, get?_parsed, Option.isSome_map]
    have hperm := (List.perm_ext_iff_of_nodup m.parsed.packets.nodup m.packetsByIp.nodup).2 hmem
    show m.parsed.packets.size = m.packetsByIp.size
    rw [Dict.size_eq_keys, Dict.size_eq_keys]
    exact hperm.length_eq

/-- What is fetched of a labelled state is read as the state. -/
theorem parseFetched_readOf {m : Option MetricsState} (hm : ∀ m', m = some m' → m'.Labelled) :
    parseFetched (fetchMetrics (m.map fun m => encodeUtf8 m.renderPrometheusText)) = some (readOf m) := by
  cases m with
  | none => rfl
  | some m =>
    have hlabels := hm m rfl
    have htext : fetchMetrics (some (encodeUtf8 m.renderPrometheusText)) = m.renderPrometheusText := by
      rw [fetchMetrics, Option.bind_some, decodeUtf8_encodeUtf8, Option.getD_some]
    rw [Option.map_some, htext, parseFetched_eq]
    exact parseMetrics_render (fun ip hip => plain_of_text (hlabels.packets ip hip)) fun ip hip =>
      plain_of_text (hlabels.blocked ip hip)

/-- What a turn makes of a state. -/
theorem refresh_readOf {m : Option MetricsState} (hm : ∀ m', m = some m' → m'.Labelled) (prevPackets : Dict Text ℤ) :
    refresh prevPackets (fetchMetrics (m.map fun m => encodeUtf8 m.renderPrometheusText)) =
      some (⟨rows (readOf m) prevPackets, (readOf m).packets.size, (readOf m).blockedCount, (readOf m).shieldsUp,
        (readOf m).blockEvents, (readOf m).unblockEvents⟩, (readOf m).packets) := by
  rw [refresh, parseFetched_readOf hm]
  rfl

/-- The screen of two looks shows the states of both. -/
theorem shows_readOf (m prev : Option MetricsState) :
    Screen.Shows ⟨rows (readOf m) (readOf prev).packets, (readOf m).packets.size, (readOf m).blockedCount,
      (readOf m).shieldsUp,
      (readOf m).blockEvents, (readOf m).unblockEvents⟩ m prev where
  length := by
    show (rows _ _).length = _
    rw [rows, List.length_map, ← size_readOf]
    exact length_greatest Prod.snd 12 _
  distinct := by
    show ((rows _ _).map Row.ip).Nodup
    rw [rows, List.map_map]
    exact nodup_greatest Prod.snd 12 _ (readOf m).packets.nodup
  sorted := by
    show (rows _ _).Pairwise _
    rw [rows, List.pairwise_map]
    exact sorted_greatest Prod.snd 12 _
  rows := by
    intro r hr
    obtain ⟨hcnt, hdiff⟩ := table_row hr
    rw [get?_readOf, Option.map_eq_some_iff] at hcnt
    obtain ⟨n, hn, hcnt⟩ := hcnt
    refine ⟨n, hn, hcnt.symm, ?_, ?_⟩
    · obtain ⟨⟨ip, cnt⟩, -, rfl⟩ := List.mem_map.1 hr
      show decide (ip ∈ (readOf m).blockedSet) = true ↔ _
      rw [decide_eq_true_eq]
      cases m with
      | none => simp [readOf]
      | some m =>
        show ip ∈ m.blockedIpsSet.toFinset ↔ _
        simp
    · rw [hdiff, get?_readOf, ← hcnt]
      cases countOf prev r.ip <;> rfl
  greatest := by
    intro ip n hn
    have hitem : (ip, (n : ℤ)) ∈ (readOf m).packets.items := by
      rw [Dict.mem_items_iff, get?_readOf, hn]
      rfl
    rcases greatest_spec Prod.snd 12 _ hitem with htop | hleast
    · exact Or.inl ⟨_, List.mem_map_of_mem htop, rfl⟩
    · right
      intro r hr
      obtain ⟨q, hq, rfl⟩ := List.mem_map.1 hr
      exact hleast q hq
  totalIps := size_readOf m
  blockedCount := by cases m <;> rfl
  shieldsUp := by cases m <;> rfl
  blockEvents := by cases m <;> rfl
  unblockEvents := by cases m <;> rfl

/-! ## A session -/

variable {rbState : Option Mapping} {refreshSec : ℚ} {s s' : Session} {page : Page} {l : Look} {looks : List Look}

/-- The events of some turns. -/
def drained (rbState : Option Mapping) (looks : List Look) : List RbEvent :=
  looks.flatMap fun l => ((newEvents rbState l.memory).map Prod.fst).getD []

theorem accumulate_eq (accumulated new : List RbEvent) :
    accumulate accumulated new = (accumulated ++ new).rtake 50 := by
  unfold accumulate
  split
  · rfl
  · rw [rtake_of_length_le (by omega)]

/-- A turn fetches, draws and drains. -/
theorem of_turn (h : s.turn rbState refreshSec l = some (page, s')) :
    ∃ packets, refresh s.prevPackets (fetchMetrics l.response) = some (page.screen, packets) ∧
      s'.prevPackets = packets ∧
      s'.accumulatedRbEvents = (s.accumulatedRbEvents ++ drained rbState [l]).rtake 50 ∧
      page.events = eventRows s'.accumulatedRbEvents ∧ (0 < refreshSec → 0 < page.dt) := by
  unfold Session.turn at h
  cases hrefresh : refresh s.prevPackets (fetchMetrics l.response) with
  | none => simp [hrefresh] at h
  | some r =>
    obtain ⟨screen, packets⟩ := r
    cases hnew : newEvents rbState l.memory with
    | none => simp [hrefresh, hnew] at h
    | some r =>
      obtain ⟨new, memory⟩ := r
      simp only [hrefresh, hnew, Option.bind_eq_bind, Option.bind_some, Option.pure_def, Option.some.injEq,
        Prod.mk.injEq] at h
      obtain ⟨rfl, rfl⟩ := h
      have hdrained : drained rbState [l] = new := by simp [drained, hnew]
      refine ⟨packets, rfl, rfl, ?_, rfl, fun hpos => ?_⟩
      · rw [hdrained]
        exact accumulate_eq _ _
      · dsimp only
        split
        · rename_i hlater
          exact sub_pos.2 hlater
        · exact hpos

/-- The state of the turn before. -/
def before (prev : Option MetricsState) (served : ℕ → Option MetricsState) : ℕ → Option MetricsState
  | 0 => prev
  | n + 1 => served n

/-- What a session knows after some turns. -/
structure Session.After (rbState : Option Mapping) (done : List Look) (prev : Option MetricsState)
    (s : Session) : Prop where
  packets : s.prevPackets = (readOf prev).packets
  events : s.accumulatedRbEvents = (drained rbState done).rtake 50

theorem after_start (rbState : Option Mapping) (time : ℚ) : (Session.start time).After rbState [] none := ⟨rfl, rfl⟩

/-- **One turn** shows the state it was served. -/
theorem shows_turn {done : List Look} {m prev : Option MetricsState} (hs : s.After rbState done prev)
    (hm : ∀ m', m = some m' → m'.Labelled) (hl : l.response = m.map fun m => encodeUtf8 m.renderPrometheusText)
    (h : s.turn rbState refreshSec l = some (page, s')) :
    s'.After rbState (done ++ [l]) m ∧ page.screen.Shows m prev ∧
      page.events = eventRows (drained rbState (done ++ [l])) ∧
      (0 < refreshSec → 0 < page.dt) := by
  obtain ⟨packets, hrefresh, hpackets, hevents, hpage, hdt⟩ := of_turn h
  rw [hl, hs.packets, refresh_readOf hm, Option.some.injEq, Prod.mk.injEq] at hrefresh
  obtain ⟨hscreen, hcounts⟩ := hrefresh
  have hevents' : s'.accumulatedRbEvents = (drained rbState (done ++ [l])).rtake 50 := by
    rw [hevents, hs.events, rtake_rtake_append, drained, drained, drained, List.flatMap_append]
  refine ⟨⟨hpackets.trans hcounts.symm, hevents'⟩, ?_, ?_, hdt⟩
  · rw [← hscreen]
    exact shows_readOf m prev
  -- the last eight of the last fifty are the last eight
  · rw [hpage, hevents']
    unfold eventRows
    rw [rtake_rtake (by decide)]

/-- Every page of a session shows the state that was served for it. -/
theorem shows_run (done : List Look) {prev : Option MetricsState} (hs : s.After rbState done prev) {pages : List Page}
    (served : ℕ → Option MetricsState) (hserved : ∀ n m, served n = some m → m.Labelled)
    (hlooks : ∀ n l, looks[n]? = some l → l.response = (served n).map fun m => encodeUtf8 m.renderPrometheusText)
    (h : Session.run rbState refreshSec s looks = some (pages, s')) :
    pages.length = looks.length ∧ ∀ n page, pages[n]? = some page →
      page.screen.Shows (served n) (before prev served n) ∧
        page.events = eventRows (drained rbState (done ++ looks.take (n + 1))) ∧ (0 < refreshSec → 0 < page.dt) := by
  induction looks generalizing s done prev pages served with
  | nil =>
    cases h
    exact ⟨rfl, fun n page hpage => by simp at hpage⟩
  | cons l looks ih =>
    unfold Session.run at h
    cases hturn : s.turn rbState refreshSec l with
    | none => simp [hturn] at h
    | some r =>
      obtain ⟨page₀, s₁⟩ := r
      cases hrest : Session.run rbState refreshSec s₁ looks with
      | none => simp [hturn, hrest] at h
      | some r =>
        obtain ⟨pages₁, s₂⟩ := r
        simp only [hturn, hrest, Option.bind_eq_bind, Option.bind_some, Option.pure_def, Option.some.injEq,
          Prod.mk.injEq] at h
        obtain ⟨rfl, rfl⟩ := h
        obtain ⟨hafter, hshows, hevents, hdt⟩ := shows_turn hs (hserved 0) (hlooks 0 l rfl) hturn
        obtain ⟨hlength, hpages⟩ := ih (done ++ [l]) hafter (fun n => served (n + 1)) (fun n => hserved (n + 1))
          (fun n l' hl' => hlooks (n + 1) l' hl') hrest
        refine ⟨by rw [List.length_cons, List.length_cons, hlength], fun n page hpage => ?_⟩
        cases n with
        | zero =>
          cases hpage
          exact ⟨hshows, hevents, hdt⟩
        | succ n =>
          obtain ⟨hshows', hevents', hdt'⟩ := hpages n page hpage
          refine ⟨?_, ?_, hdt'⟩
          · cases n with
            | zero => exact hshows'
            | succ n => exact hshows'
          · rw [hevents', List.append_assoc]
            rfl

/-- **Every page shows what was served.** Let each turn of a session be served the text of some state of the
exporter, or fail to fetch it. Then each page holds the counters of its state, the twelve addresses of the
greatest counts with the marks of the blocked and the differences to the turn before, and the last eight of
all events that were drained so far. -/
theorem session_shows (rbState : Option Mapping) (refreshSec time : ℚ) {looks : List Look}
    {pages : List Page} {s : Session}
    (served : ℕ → Option MetricsState) (hserved : ∀ n m, served n = some m → m.Labelled)
    (hlooks : ∀ n l, looks[n]? = some l → l.response = (served n).map fun m => encodeUtf8 m.renderPrometheusText)
    (h : Session.run rbState refreshSec (Session.start time) looks = some (pages, s)) :
    pages.length = looks.length ∧ ∀ n page, pages[n]? = some page →
      page.screen.Shows (served n) (before none served n) ∧
        page.events = eventRows (drained rbState (looks.take (n + 1))) ∧ (0 < refreshSec → 0 < page.dt) :=
  shows_run [] (after_start rbState time) served hserved hlooks h

/-- A session ends only where a drain does. -/
theorem exists_run (rbState : Option Mapping) (refreshSec : ℚ) (s : Session) {looks : List Look}
    (served : ℕ → Option MetricsState) (hserved : ∀ n m, served n = some m → m.Labelled)
    (hlooks : ∀ n l, looks[n]? = some l → l.response = (served n).map fun m => encodeUtf8 m.renderPrometheusText)
    (hdrain : ∀ l ∈ looks, (newEvents rbState l.memory).isSome) :
    ∃ pages s', Session.run rbState refreshSec s looks = some (pages, s') := by
  induction looks generalizing s served with
  | nil => exact ⟨[], s, rfl⟩
  | cons l looks ih =>
    obtain ⟨new, hnew⟩ := Option.isSome_iff_exists.1 (hdrain l List.mem_cons_self)
    have hrefresh := refresh_readOf (hserved 0) s.prevPackets
    rw [← hlooks 0 l rfl] at hrefresh
    obtain ⟨page, s₁, hturn⟩ : ∃ page s₁, s.turn rbState refreshSec l = some (page, s₁) := by
      unfold Session.turn
      rw [hrefresh, hnew]
      exact ⟨_, _, rfl⟩
    obtain ⟨pages, s₂, hrest⟩ :=
      ih s₁ (fun n => served (n + 1)) (fun n => hserved (n + 1)) (fun n l' hl' => hlooks (n + 1) l' hl')
      (fun l' hl' => hdrain l' (List.mem_cons_of_mem l hl'))
    refine ⟨page :: pages, s₂, ?_⟩
    simp only [Session.run, hturn, hrest, Option.bind_eq_bind, Option.bind_some, Option.pure_def]

/-- A turn whose fetch fails, and one that is served a state; the ring buffer is not there. -/
def twoLooks : List Look :=
  [⟨none, 1, ⟨0, fun _ => 0⟩⟩, ⟨some (encodeUtf8 (showing 7).renderPrometheusText), 3, ⟨0, fun _ => 0⟩⟩]

/-- What these are served. -/
def servedSecond (n : ℕ) : Option MetricsState := if n = 1 then some (showing 7) else none

theorem labelled_servedSecond (n : ℕ) (m : MetricsState) (h : servedSecond n = some m) : m.Labelled := by
  unfold servedSecond at h
  split at h
  · cases h
    exact labelled_showing 7
  · cases h

theorem response_twoLooks (n : ℕ) (l : Look) (h : twoLooks[n]? = some l) :
    l.response = (servedSecond n).map fun m => encodeUtf8 m.renderPrometheusText := by
  unfold twoLooks at h
  unfold servedSecond
  rcases n with - | - | n
  · rw [List.getElem?_cons_zero, Option.some.injEq] at h
    rw [← h, if_neg (by decide), Option.map_none]
  · rw [List.getElem?_cons_succ, List.getElem?_cons_zero, Option.some.injEq] at h
    rw [← h, if_pos rfl, Option.map_some]
  · rw [List.getElem?_cons_succ, List.getElem?_cons_succ, List.getElem?_nil] at h
    cases h

theorem session_shows_twoLooks :
    ∃ pages s, Session.run none 2 (Session.start 0) twoLooks = some (pages, s) ∧ pages.length = 2 ∧
      ∀ page, pages[1]? = some page → page.screen.Shows (servedSecond 1) (servedSecond 0) ∧ 0 < page.dt := by
  obtain ⟨pages, s, hrun⟩ := exists_run none 2 (Session.start 0) servedSecond labelled_servedSecond response_twoLooks
    (fun l _ => rfl)
  obtain ⟨hlength, hpages⟩ := session_shows none 2 0 servedSecond labelled_servedSecond response_twoLooks hrun
  refine ⟨pages, s, hrun, hlength, fun page hpage => ?_⟩
  obtain ⟨hshows, -, hdt⟩ := hpages 1 page hpage
  exact ⟨hshows, hdt (by norm_num)⟩

/-! ## A session along a run of the host -/

section Host

variable {T : Type} {env : ℕ → Interrupt} {args : Args T} {fds : Fds}
variable [Add T] [Sub T] [Zero T] [LE T] [DecidableLE T]
variable {sys₀ : System T} {acts : List (SystemAct T)}

/-- **From the filter to the page.** Let a session be served states of the exporter whose blocked set is the one
that the host has exported at some point of its run. Then every address that a page marks as blocked is that of a
source which the host started out with, which a record of the event ring buffer has named by then, or which
another tool has listed. -/
theorem marked_with_cause (hring : Roomy env) (h₀ : sys₀.Fresh) {time : ℚ} {pages : List Page}
    (served : ℕ → Option MetricsState) (hserved : ∀ n m, served n = some m → m.Labelled)
    (hlooks : ∀ n l, looks[n]? = some l → l.response = (served n).map fun m => encodeUtf8 m.renderPrometheusText)
    (h : Session.run rbState refreshSec (Session.start time) looks = some (pages, s)) (point : ℕ → ℕ)
    (hpoint : ∀ n m, served n = some m → point n ≤ acts.length ∧
      m.blockedIpsSet = (sysAt env args fds sys₀ acts (point n)).world.metrics.blockedIpsSet)
    {n : ℕ} {page : Page} (hpage : pages[n]? = some page) {r : Row} (hr : r ∈ page.screen.table)
    (hmark : r.blocked = true) :
    ∃ src : Source, r.ip = src.text ∧ (src ∈ sys₀.given ∨ src ∈ recorded env args fds sys₀ acts (point n) ∨
      src ∈ listedByTools env (sysAt env args fds sys₀ acts (point n)).world.turn) := by
  obtain ⟨-, hpages⟩ := shows_run [] (after_start rbState time) served hserved hlooks h
  obtain ⟨hshows, -, -⟩ := hpages n page hpage
  obtain ⟨-, -, -, hblocked, -⟩ := hshows.rows r hr
  obtain ⟨m, hm, hip⟩ := hblocked.1 hmark
  obtain ⟨hpt, hset⟩ := hpoint n m hm
  rw [hset] at hip
  obtain ⟨src, htext, hsrc⟩ := (grounded_at args fds hring h₀ hpt).exported r.ip hip
  refine ⟨src, htext, ?_⟩
  rcases hsrc with ((hgiven | hrecorded) | htools) | hring
  · exact Or.inl hgiven
  · exact Or.inr (Or.inl hrecorded)
  · exact Or.inr (Or.inr htools)
  · exact Or.inr (Or.inl ⟨point n, le_rfl, hring⟩)

end Host

/-- The victim has sent seven packets and is tracked. -/
def accusing : MetricsState := { showing 7 with blockedIpsSet := [victim.text] }

/-- The first fetch is served that state, and no other succeeds. -/
def servedAccusing (n : ℕ) : Option MetricsState := if n = 0 then some accusing else none

theorem labelled_servedAccusing (n : ℕ) (m : MetricsState) (h : servedAccusing n = some m) : m.Labelled := by
  unfold servedAccusing at h
  split at h
  · cases h
    refine ⟨(labelled_showing 7).packets, fun ip hip => ?_⟩
    exact ⟨victim, (List.mem_singleton.1 hip).symm⟩
  · cases h

/-- A turn that is served this state; the ring buffer is not there. -/
def accusingLooks : List Look := [⟨some (encodeUtf8 accusing.renderPrometheusText), 1, ⟨0, fun _ => 0⟩⟩]

theorem response_accusingLooks (n : ℕ) (l : Look) (h : accusingLooks[n]? = some l) :
    l.response = (servedAccusing n).map fun m => encodeUtf8 m.renderPrometheusText := by
  unfold accusingLooks at h
  unfold servedAccusing
  cases n with
  | zero =>
    rw [List.getElem?_cons_zero, Option.some.injEq] at h
    rw [← h, if_pos rfl, Option.map_some]
  | succ n =>
    rw [List.getElem?_cons_succ, List.getElem?_nil] at h
    cases h

/-- The one row of its page. -/
theorem exists_accused {screen : Screen} (h : screen.Shows (servedAccusing 0) none) :
    ∃ r ∈ screen.table, r.ip = victim.text ∧ r.blocked = true := by
  have hsome : servedAccusing 0 = some accusing := if_pos rfl
  rw [hsome] at h
  have hsize : accusing.packetsByIp.size = 1 := rfl
  have hlength := h.length
  rw [Option.map_some, Option.getD_some, hsize] at hlength
  obtain ⟨r, hr⟩ := List.exists_mem_of_length_pos (show 0 < screen.table.length by omega)
  obtain ⟨n, hn, -, hblocked, -⟩ := h.rows r hr
  have hmem : r.ip ∈ accusing.packetsByIp := Dict.mem_iff_isSome.2 (Option.isSome_iff_exists.2 ⟨n, hn⟩)
  have hip : r.ip = victim.text := by
    rcases Dict.mem_set.1 hmem with hip | hip
    · exact hip
    · cases hip
  exact ⟨r, hr, hip, hblocked.2 ⟨accusing, rfl, List.mem_singleton.2 hip⟩⟩

theorem exported_victim : accusing.blockedIpsSet =
    (sysAt calm thirtySeconds allOpen (victimListed ℕ) [.start, .tick 100] 2).world.metrics.blockedIpsSet := by
  decide +kernel

theorem point_servedAccusing (n : ℕ) (m : MetricsState) (h : servedAccusing n = some m) :
    2 ≤ [SystemAct.start, .tick 100].length ∧ m.blockedIpsSet =
      (sysAt calm thirtySeconds allOpen (victimListed ℕ) [.start, .tick 100] 2).world.metrics.blockedIpsSet := by
  unfold servedAccusing at h
  split at h
  · rw [Option.some.injEq] at h
    rw [← h]
    exact ⟨le_rfl, exported_victim⟩
  · cases h

/-- The page marks the victim, which was listed at the start and is tracked after the first tick. -/
theorem marked_with_cause_victim :
    ∃ pages s page r, Session.run none 2 (Session.start 0) accusingLooks = some (pages, s) ∧ pages[0]? = some page ∧
      r ∈ page.screen.table ∧ r.blocked = true ∧ r.ip = victim.text ∧
      ∃ src : Source, r.ip = src.text ∧ (src ∈ (victimListed ℕ).given ∨
        src ∈ recorded calm thirtySeconds allOpen (victimListed ℕ) [.start, .tick 100] 2 ∨
        src ∈ listedByTools calm
          (sysAt calm thirtySeconds allOpen (victimListed ℕ) [.start, .tick 100] 2).world.turn) := by
  obtain ⟨pages, s, hrun⟩ :=
  exists_run none 2 (Session.start 0) servedAccusing labelled_servedAccusing response_accusingLooks
    (fun l _ => rfl)
  obtain ⟨hlength, hpages⟩ :=
    shows_run [] (after_start none 0) servedAccusing labelled_servedAccusing response_accusingLooks hrun
  obtain ⟨page, hpage⟩ : ∃ page, pages[0]? = some page :=
    ⟨_, List.getElem?_eq_getElem (hlength ▸ Nat.one_pos : 0 < pages.length)⟩
  obtain ⟨hshows, -, -⟩ := hpages 0 page hpage
  obtain ⟨r, hr, hip, hmark⟩ := exists_accused hshows
  refine ⟨pages, s, page, r, hrun, hpage, hr, hmark, hip, ?_⟩
  exact marked_with_cause roomy_calm fresh_victimListed servedAccusing labelled_servedAccusing
    response_accusingLooks hrun
    (fun _ => 2) point_servedAccusing hpage hr hmark

end FluxGuard
