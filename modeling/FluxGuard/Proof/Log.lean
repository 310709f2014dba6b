import FluxGuard.Model.Log
import FluxGuard.Proof.Account
import FluxGuard.Proof.Allowlist
import FluxGuard.Proof.JsonLocal

/-!
# The log reads back

A record is written on one line, so that a reader can go through the log line by line, and the last
line is found out when the process was killed in the middle of it.

* `newline_notMem_dumps`: a value without an indent is written on one line.
* `readLog_torn`: **every record that was written whole is read**, whatever follows the last of them.
* `blockEntry_logRecord`: the records of blocks tell of them.
* `log_replay`: **the log of a run tells which addresses are tracked at its end.**
-/

namespace FluxGuard

/-! ## Lines -/

theorem newline_notMem_escapeUnit {n : ℕ} : '\n' ∉ escapeUnit n := by
  have hdigit : ∀ m < 16, Nat.digitChar m ≠ '\n' := by decide
  have hne : ∀ m, '\n' ≠ Nat.digitChar (m % 16) := fun m => (hdigit _ (Nat.mod_lt m (by decide))).symm
  simp [escapeUnit, hne]

/-- An escaped character is on one line. -/
theorem newline_notMem_escapeChar (u : CodePoint) : '\n' ∉ escapeChar u := by
  unfold escapeChar
  split
  · decide
  · decide
  · decide
  · decide
  · decide
  · decide
  · decide
  · split
    · rename_i hrange
      intro h
      have hval : 10 = (Char.ofNat u.val).toNat := congrArg Char.toNat (List.mem_singleton.1 h)
      rw [Char.toNat_ofNat, if_pos (Or.inl (by omega))] at hval
      omega
    · split
      · exact newline_notMem_escapeUnit
      · exact fun h => (List.mem_append.1 h).elim newline_notMem_escapeUnit newline_notMem_escapeUnit

/-- So is a string. -/
theorem newline_notMem_dumpsStr (s : PyStr) : '\n' ∉ dumpsStr s := by
  intro h
  rcases List.mem_cons.1 h with h | h
  · exact absurd h (by decide)
  · rcases List.mem_append.1 h with h | h
    · obtain ⟨u, -, hu⟩ := List.mem_flatMap.1 h
      exact newline_notMem_escapeChar u hu
    · exact absurd h (by decide)

variable {L : Layout}

/-- So is a list, where the layout has no indent. -/
theorem newline_notMem_body {α : Type} (hL : L.indent = none) {level : ℕ} {text : α → Text} {a : α} {as : List α}
    (h : ∀ x ∈ a :: as, '\n' ∉ text x) : '\n' ∉ L.body level text a as := by
  have hline : ∀ n, L.newline n = [] := by
    intro n
    unfold Layout.newline
    rw [hL]
  have hsep : '\n' ∉ L.itemSep := by
    obtain ⟨n, hn⟩ := L.itemSep_eq
    rw [hn]
    simp
  rw [List.forall_mem_cons] at h
  unfold Layout.body
  simp only [hline, List.nil_append, List.append_nil, List.mem_append, List.mem_flatMap, not_or, not_exists, not_and]
  exact ⟨h.1, fun x hx => ⟨hsep, h.2 x hx⟩⟩

/-- **A value without an indent is written on one line.** -/
theorem newline_notMem_dumps (hL : L.indent = none) {v : Json} (hv : v.Writable) (level : ℕ) :
    '\n' ∉ dumpsValue L level v := by
  have hplain : ∀ {s : Text}, (∀ c ∈ s, Plain c) → '\n' ∉ s := fun hs hmem => absurd (hs _ hmem).2.2.2.2.2 (by decide)
  induction hv generalizing level with
  | null =>
    rw [dumpsValue]
    decide
  | bool b =>
    cases b with
    | true =>
      rw [dumpsValue]
      decide
    | false =>
      rw [dumpsValue]
      decide
  | @int z h =>
    rw [dumpsValue, dumpsInt]
    intro hmem
    rcases List.mem_append.1 hmem with hmem | hmem
    · split at hmem
      · exact absurd hmem (by decide)
      · cases hmem
    · exact absurd (isDigit_toDigits hmem) (by decide)
  | float x => exact hplain (plain_dumpsFloat x)
  | str h => exact newline_notMem_dumpsStr _
  | @arr vs h ih =>
    cases vs with
    | nil =>
      rw [dumpsValue]
      decide
    | cons v vs =>
      rw [dumpsValue_arr, List.mem_cons, List.mem_append, not_or, not_or]
      exact ⟨by decide, newline_notMem_body hL fun w hw => ih w hw (level + 1), by decide⟩
  | @obj ms hkeys h ih =>
    cases ms with
    | nil =>
      rw [dumpsValue]
      decide
    | cons m ms =>
      have hsep : '\n' ∉ L.keySep := by
        obtain ⟨n, hn⟩ := L.keySep_eq
        rw [hn]
        simp
      have hpair : ∀ p ∈ m :: ms, '\n' ∉ dumpsPair L (level + 1) p := by
        intro p hp
        obtain ⟨k, w⟩ := p
        rw [dumpsPair, List.mem_append, List.mem_append, not_or, not_or]
        exact ⟨⟨newline_notMem_dumpsStr k, hsep⟩, ih _ hp (level + 1)⟩
      rw [dumpsValue_obj, List.mem_cons, List.mem_append, not_or, not_or]
      exact ⟨by decide, newline_notMem_body hL hpair, by decide⟩

/-! ## Records -/

/-- The keys and values of an event's fields can be written. -/
def Loggable (fields : List (PyStr × Json)) : Prop := ∀ m ∈ fields, Joined m.1 ∧ m.2.Writable

/-- A record of loggable fields can be written. -/
theorem writable_logRecord {ts event : Text} {fields : List (PyStr × Json)} (h : Loggable fields) :
    (Json.obj (logRecord ts event fields).items).Writable := by
  have hfold : ∀ (fields : List (PyStr × Json)) (d : Dict PyStr Json), Loggable fields → Loggable d.items →
      Loggable (fields.foldl (fun record m => record.set m.1 m.2) d).items := by
    intro fields
    induction fields with
    | nil => exact fun d _ hd => hd
    | cons m fields ih =>
      intro d hm hd
      unfold Loggable at hm
      rw [List.forall_mem_cons] at hm
      refine ih (d.set m.1 m.2) hm.2 fun p hp => ?_
      have hget := Dict.mem_items_iff.1 (show (p.1, p.2) ∈ (d.set m.1 m.2).items from hp)
      rw [Dict.get?_set] at hget
      split at hget
      · rename_i heq
        rw [heq, ← Option.some.inj hget]
        exact hm.1
      · exact hd (p.1, p.2) (Dict.mem_items_iff.2 hget)
  have hstart : Loggable (Dict.ofItems [(pyStr "timestamp".toList, Json.str (pyStr ts)),
      (pyStr "event".toList, .str (pyStr event))]).items := by
    intro m hm
    rcases List.mem_cons.1 (Dict.mem_of_ofItems hm) with rfl | hm
    · exact ⟨joined_pyStr _, .str (joined_pyStr ts)⟩
    · cases List.mem_singleton.1 hm
      exact ⟨joined_pyStr _, .str (joined_pyStr event)⟩
  have hall := hfold fields _ h hstart
  exact .obj (fun m hm => (hall m hm).1) fun m hm => (hall m hm).2

/-- An event as `write_json_log` gets it, with its time. -/
abbrev LogEvent := Text × Text × List (PyStr × Json)

/-- The line of the log, without its newline. -/
def LogEvent.line (e : LogEvent) : Text := dumps .compact (.obj (logRecord e.1 e.2.1 e.2.2).items)

/-- The record that the line holds. -/
def LogEvent.record (e : LogEvent) : Dict PyStr Json := logRecord e.1 e.2.1 e.2.2

/-- What `write_json_log` writes. -/
def LogEvent.text (e : LogEvent) : Text := writeJsonLog e.1 e.2.1 e.2.2

variable {e : LogEvent}

/-- A record is one line. -/
theorem newline_notMem_line (h : Loggable e.2.2) : '\n' ∉ e.line := newline_notMem_dumps rfl (writable_logRecord h) 0

/-- A line is read back as its record. -/
theorem loads_line (h : Loggable e.2.2) : loads e.line = some (.obj e.record.items) :=
  loads_dumps _ (writable_logRecord h)

theorem ofItems_items {α β : Type} [DecidableEq α] (d : Dict α β) : Dict.ofItems d.items = d :=
  Dict.ext_items (Dict.items_ofItems d.nodup)

/-- A line that is there with its end is read, and what follows is read after it. -/
theorem readLog_text (h : Loggable e.2.2) (rest : Text) : readLog (e.text ++ rest) = e.record :: readLog rest := by
  have htext : e.text ++ rest = e.line ++ '\n' :: rest := by
    show e.line ++ ['\n'] ++ rest = _
    rw [List.append_assoc, List.singleton_append]
  unfold readLog
  rw [htext, List.splitOn_append_cons_self_of_not_mem (newline_notMem_line h), List.filterMap_cons, loads_line h]
  simp only [ofItems_items]

/-- The end of a log whose last line was cut short. -/
theorem readLog_cut (h : Loggable e.2.2) {torn : Text} (ht : torn <+: e.line) :
    readLog torn = if torn = e.line then [e.record] else [] := by
  have hline : '\n' ∉ torn := fun hmem => newline_notMem_line h (ht.mem hmem)
  unfold readLog
  rw [List.splitOn_eq_singleton hline, List.filterMap_cons, List.filterMap_nil]
  by_cases hwhole : torn = e.line
  · rw [if_pos hwhole, hwhole, loads_line h]
    simp only [ofItems_items]
  · rw [if_neg hwhole, loads_dumps_cut _ (writable_logRecord h) ht hwhole]

/-- **Every record that was written whole is read**, also when the process was killed while it wrote the next. -/
theorem readLog_torn {es : List LogEvent} (hes : ∀ e ∈ es, Loggable e.2.2) (h : Loggable e.2.2) {torn : Text}
    (ht : torn <+: e.text) :
    readLog (es.flatMap LogEvent.text ++ torn) =
      es.map LogEvent.record ++ if e.line <+: torn then [e.record] else [] := by
  induction es with
  | cons e' es ih =>
    rw [List.forall_mem_cons] at hes
    rw [List.flatMap_cons, List.append_assoc, readLog_text hes.1, ih hes.2]
    rfl
  | nil =>
    rw [List.flatMap_nil, List.map_nil, List.nil_append, List.nil_append]
    have hsplit : torn <+: e.line ++ ['\n'] := ht
    rcases List.prefix_concat_iff.1 hsplit with rfl | hcut
    -- with its end
    · have hread := readLog_text h []
      rw [List.append_nil] at hread
      rw [show e.line ++ ['\n'] = e.text from rfl, hread, if_pos ⟨['\n'], rfl⟩]
      rfl
    · rw [readLog_cut h hcut]
      have hiff : torn = e.line ↔ e.line <+: torn :=
        ⟨fun heq => heq ▸ List.prefix_refl _, fun hp => hcut.eq_of_length_le hp.length_le⟩
      simp only [hiff]

/-- A tick at a given time. -/
def tickEvent : LogEvent :=
  ("2026-01-01T00:00:00.000Z".toList, "TICK".toList,
    [(pyStr "observed_ips".toList, .int 1), (pyStr "blocked_count".toList, .int 0),
      (pyStr "global_tokens".toList, .int 499999)])

theorem loggable_tickEvent : Loggable tickEvent.2.2 := by
  have hdigits : ∀ n ∈ [1, 0, 499999], (Nat.toDigits 10 n).length ≤ 4300 := by decide
  have hint : ∀ n ∈ [1, 0, 499999], (Json.int (n : ℕ)).Writable := fun n hn => .int (hdigits n hn)
  refine List.forall_mem_cons.2 ⟨⟨joined_pyStr _, hint 1 (by decide)⟩, List.forall_mem_cons.2
    ⟨⟨joined_pyStr _, hint 0 (by decide)⟩, List.forall_mem_singleton.2 ⟨joined_pyStr _, hint 499999 (by decide)⟩⟩⟩

/-- Of two ticks, the second cut short, the first is read. -/
theorem readLog_tick : readLog ([tickEvent].flatMap LogEvent.text ++ tickEvent.text.take 60) = [tickEvent.record] := by
  have hcut : ¬ tickEvent.line <+: tickEvent.text.take 60 := by
    intro hp
    have hlen := hp.length_le
    have hline : 60 < tickEvent.line.length := by decide +kernel
    rw [List.length_take] at hlen
    omega
  have hall : ∀ e ∈ [tickEvent], Loggable e.2.2 := by
    intro e he
    rw [List.mem_singleton.1 he]
    exact loggable_tickEvent
  have hread : readLog ([tickEvent].flatMap LogEvent.text ++ tickEvent.text.take 60) =
      [tickEvent].map LogEvent.record ++ if tickEvent.line <+: tickEvent.text.take 60 then [tickEvent.record] else [] :=
    readLog_torn hall loggable_tickEvent (List.take_prefix 60 tickEvent.text)
  rw [hread, if_neg hcut]
  rfl

/-! ## Blocks -/

/-- The records of blocks and unblocks tell of them, and the others do not. -/
theorem blockEntry_logRecord (ts : Text) (l : LogLine) : blockEntry (logRecord ts l.event l.fields) = l.entry := by
  cases l with
  | shieldsUp g => rfl
  | tick o b g => rfl
  | autoBlock ip n =>
    show some (Entry.added (Allowlist.readable (pyStr ip)) n) = _
    rw [Allowlist.readable_pyStr]
    rfl
  | unblock ip n =>
    show some (Entry.removed (Allowlist.readable (pyStr ip)) n) = _
    rw [Allowlist.readable_pyStr]
    rfl

/-- An event of `monitor`, with its time. -/
def LogLine.stamped (l : Text × LogLine) : LogEvent := (l.1, l.2.event, l.2.fields)

/-- The block entries of the log's text are those of its lines. -/
theorem blockEntries_logText {lines : List (Text × LogLine)} (h : ∀ l ∈ lines, Loggable l.2.fields) :
    (readLog (logText lines)).filterMap blockEntry = (lines.map Prod.snd).filterMap LogLine.entry := by
  have hread : readLog (logText lines) = (lines.map LogLine.stamped).map LogEvent.record := by
    have hempty : Loggable (([], [], []) : LogEvent).2.2 := fun m hm => nomatch hm
    have hall : ∀ e ∈ lines.map LogLine.stamped, Loggable e.2.2 := List.forall_mem_map.2 h
    have htorn := readLog_torn hall hempty List.nil_prefix
    have hline : ¬ LogEvent.line ([], [], []) <+: [] := by
      rw [List.prefix_nil]
      exact List.cons_ne_nil _ _
    rw [if_neg hline, List.append_nil, List.append_nil, List.flatMap_map] at htorn
    exact htorn
  rw [hread, List.map_map, List.filterMap_map, List.filterMap_map]
  exact congrFun (congrArg List.filterMap (funext fun l => blockEntry_logRecord l.1 l.2)) lines

/-- Where no delete was lost, the journal is what was recorded. -/
theorem recorded_of_lostKeys {α : Type} [DecidableEq α] {J : List (Entry α)} (h : J.filterMap Entry.lostKey = []) :
    Journal.recorded J = J := by
  rw [List.filterMap_eq_nil_iff] at h
  exact List.filter_eq_self.2 fun e he => by rw [h e he]; rfl

/-- The numbers of a line. -/
def LogLine.numbers : LogLine → List ℤ
  | .shieldsUp globalTokens => [globalTokens]
  | .autoBlock _ blockedCount => [blockedCount]
  | .unblock _ blockedCount => [blockedCount]
  | .tick observedIps blockedCount globalTokens => [observedIps, blockedCount, globalTokens]

/-- Python writes no integer of more than 4300 digits. -/
theorem loggable_fields {l : LogLine} (h : ∀ z ∈ l.numbers, (Nat.toDigits 10 z.natAbs).length ≤ 4300) :
    Loggable l.fields := by
  intro m hm
  cases l with
  | shieldsUp g =>
    cases List.mem_singleton.1 hm
    exact ⟨joined_pyStr _, .int (h g List.mem_cons_self)⟩
  | autoBlock ip n =>
    rcases List.mem_cons.1 hm with rfl | hm
    · exact ⟨joined_pyStr _, .str (joined_pyStr ip)⟩
    · cases List.mem_singleton.1 hm
      exact ⟨joined_pyStr _, .int (h n List.mem_cons_self)⟩
  | unblock ip n =>
    rcases List.mem_cons.1 hm with rfl | hm
    · exact ⟨joined_pyStr _, .str (joined_pyStr ip)⟩
    · cases List.mem_singleton.1 hm
      exact ⟨joined_pyStr _, .int (h n List.mem_cons_self)⟩
  | tick o n g =>
    simp only [LogLine.numbers, List.forall_mem_cons] at h
    simp only [LogLine.fields, List.mem_cons, List.not_mem_nil, or_false] at hm
    rcases hm with rfl | rfl | rfl
    · exact ⟨joined_pyStr _, .int h.1⟩
    · exact ⟨joined_pyStr _, .int h.2.1⟩
    · exact ⟨joined_pyStr _, .int h.2.2.1⟩

section Run

variable {T : Type} [Add T] [Sub T] [Zero T] [LE T] [DecidableLE T] {env : ℕ → Interrupt} {args : Args T} {fds : Fds}

/-- **The log of a run tells which addresses are tracked at its end**, as long as every delete went through: the blocks
and unblocks read from it lead from the restored addresses to them, each with the right count. -/
theorem log_replay {w₀ w₁ w : World T} {b₀ b : Brain T} {nows : List T} (hstart : start env fds w₀ = (w₁, some b₀))
    (hrun : ticks env args fds nows b₀ w₁ = (w, some b)) {ds : List (Source × Deletion)}
    (hds : w.deletes = w₀.deletes ++ ds)
    (hok : ∀ d ∈ ds, d.2 = .removed) {lines : List (Text × LogLine)} (hlines : w.log = w₀.log ++ lines.map Prod.snd)
    (hlog : ∀ l ∈ lines, ∀ z ∈ l.2.numbers, (Nat.toDigits 10 z.natAbs).length ≤ 4300) :
    Journal.Fits b₀.blockedUntil.keys.toFinset ((readLog (logText lines)).filterMap blockEntry) ∧
      Journal.replay b₀.blockedUntil.keys.toFinset ((readLog (logText lines)).filterMap blockEntry) =
        b.blockedUntil.keys.toFinset := by
  have hat := at_start env fds w₀
  rw [hstart] at hat
  have hbooks : Booked b₀.blockedUntil.keys.toFinset w₁ b₀.blockedUntil w₁ :=
    ⟨[], trivial, rfl, ⟨[], (List.append_nil _).symm, rfl⟩, ⟨[], (List.append_nil _).symm, .nil⟩, (Nat.add_zero _).symm,
      (Nat.add_zero _).symm⟩
  obtain ⟨J, h⟩ := (booked_ticks nows b₀).of_some hbooks hrun
  -- the lines since the start are those of the journal
  obtain ⟨lines', hlog', hentries⟩ := h.log
  rw [hlines, hat.log] at hlog'
  cases List.append_cancel_left hlog'
  -- nothing was lost
  obtain ⟨ds', hdel, hlost⟩ := h.deletes
  rw [hds, hat.deletes] at hdel
  cases List.append_cancel_left hdel
  have hnone : ds.filter failed = [] := by
    rw [List.filter_eq_nil_iff]
    intro d hd
    rw [failed, hok d hd]
    decide
  rw [hnone] at hlost
  have hlost' : J.filterMap Entry.lostKey = [] := List.forall₂_nil_right_iff.1 hlost
  rw [blockEntries_logText fun l hl => loggable_fields (hlog l hl), hentries, recorded_of_lostKeys hlost']
  exact ⟨h.fits, h.keys⟩

end Run

open Proc in
/-- The victim is blocked at 100 and released at 131, and the log says so. -/
theorem log_replay_victim :
    ∃ w₁ b₀ w b, start calm allOpen (victimListed ℕ).world = (w₁, some b₀) ∧
      ticks calm thirtySeconds allOpen [100, 131] b₀ w₁ = (w, some b) ∧
      Journal.Fits b₀.blockedUntil.keys.toFinset ((readLog (logText (w.log.map (Prod.mk [])))).filterMap blockEntry) ∧
      Journal.replay b₀.blockedUntil.keys.toFinset ((readLog (logText (w.log.map (Prod.mk [])))).filterMap blockEntry) =
        b.blockedUntil.keys.toFinset := by
  have hsome :
      ((start calm allOpen >>= ticks calm thirtySeconds allOpen [100, 131]) (victimListed ℕ).world).2.isSome =
        true := by
    decide +kernel
  have hdel : ∀ d ∈ ((start calm allOpen >>= ticks calm thirtySeconds allOpen [100, 131])
    (victimListed ℕ).world).1.deletes,
      d.2 = .removed := by
    decide +kernel
  have hlog : ∀ l ∈ ((start calm allOpen >>= ticks calm thirtySeconds allOpen [100, 131]) (victimListed ℕ).world).1.log,
      ∀ z ∈ l.numbers, (Nat.toDigits 10 z.natAbs).length ≤ 4300 := by
    decide +kernel
  obtain ⟨w₁, b₀, w, b, hstart, hrun⟩ := bind_isSome hsome
  rw [bind_some hstart, hrun] at hdel hlog
  have hlines : w.log = (victimListed ℕ).world.log ++ (w.log.map (Prod.mk ([] : Text))).map Prod.snd := by
    rw [List.map_map]
    exact (List.map_id w.log).symm
  exact ⟨w₁, b₀, w, b, hstart, hrun,
    log_replay hstart hrun (List.nil_append _).symm hdel hlines (List.forall_mem_map.2 hlog)⟩

end FluxGuard
