import FluxGuard.Proof.Dump

/-!
# Whether a dump ends under change

Between its calls the rest of the host changes the map. Each key that `GET_NEXT_KEY` returns lies
further on in the table, unless the key it was asked about has gone: then the walk starts again.

* `dump_bounded`: **the restarts of the walk bound a dump, with the capacity of the map**.
* `dump_never_ends`: without a bound on the restarts there is none on the dump.
-/

namespace FluxGuard

namespace Dump

variable {α : Type} [DecidableEq α] {hash : α → ℕ} {cap : ℕ}

/-- The change takes the entry of `k` away or makes a new one. -/
def Change.touches (k : α) : Change α → Bool
  | .update k' _ => k' = k
  | .store _ _ => false
  | .remove k' => k' = k

/-- The dump is about to ask for the key after one that has been touched since the dump was given it. -/
def restarts (changes : ℕ → List (Change α)) : Live hash cap × State α → Bool
  | (w, .next l) => (changes (w.turn - 1) ++ changes w.turn).any (Change.touches l.currentKey)
  | _ => false

/-- The number of restarts among the first `n` calls of a dump of `t`. -/
def restartsIn (text : α → Text) (zero : α) (changes : ℕ → List (Change α)) (t : HashMap hash cap) (n : ℕ) : ℕ :=
  (List.range n).countP fun i => restarts changes (run (live changes) text zero ⟨t, 0⟩ i)

omit [DecidableEq α] in
theorem bucketOf_lt (k : α) : bucketOf hash cap k < buckets cap := Nat.mod_lt _ (Nat.two_pow_pos _)

/-! ## One turn -/

/-- What a dump has left at `k`. -/
def left (w : Live hash cap) (k : α) : ℕ := Walk.rank (bucketOf hash cap) (buckets cap) cap w.table.keys k

/-- A change that does not touch a key leaves it in the table, and no further from the walk's end. -/
theorem apply_untouched {m : HashMap hash cap} {k : α} {c : Change α} (hc : c.touches k = false) (hk : k ∈ m.keys) :
    k ∈ (c.apply m).keys ∧
      Walk.rank (bucketOf hash cap) (buckets cap) cap (c.apply m).keys k ≤
        Walk.rank (bucketOf hash cap) (buckets cap) cap m.keys k := by
  cases c with
  | update j v => exact Table.rank_update v (of_decide_eq_false hc) hk
  | store j v =>
    unfold Change.apply
    simp only
    rw [Table.keys_store]
    exact ⟨hk, le_rfl⟩
  | remove j => exact Table.rank_remove (of_decide_eq_false hc) hk

/-- The same of any number of changes. -/
theorem applyAll_untouched {k : α} (cs : List (Change α)) (hcs : ∀ c ∈ cs, c.touches k = false) :
    ∀ m : HashMap hash cap, k ∈ m.keys → k ∈ (cs.foldl Change.apply m).keys ∧
      Walk.rank (bucketOf hash cap) (buckets cap) cap (cs.foldl Change.apply m).keys k ≤
        Walk.rank (bucketOf hash cap) (buckets cap) cap m.keys k := by
  induction cs with
  | nil =>
    intro m hk
    exact ⟨hk, le_rfl⟩
  | cons c cs ih =>
    intro m hk
    obtain ⟨hmem, hrank⟩ := apply_untouched (hcs c List.mem_cons_self) hk
    obtain ⟨hmem', hrank'⟩ := ih (fun c' hc' => hcs c' (List.mem_cons_of_mem c hc')) (c.apply m) hmem
    exact ⟨hmem', hrank'.trans hrank⟩

/-- The same of a turn of the walk. -/
theorem advance_untouched {changes : ℕ → List (Change α)} {w : Live hash cap} {k : α}
    (hc : ∀ c ∈ changes w.turn, c.touches k = false) (hk : k ∈ w.table.keys) :
    k ∈ (w.advance changes).table.keys ∧ left (w.advance changes) k ≤ left w k :=
  applyAll_untouched _ hc w.table hk

/-- A key has fewer keys after it than the table has places. -/
theorem left_lt {w : Live hash cap} {k : α} (hk : k ∈ w.table.keys) : left w k < buckets cap * cap := by
  refine Walk.rank_lt hk (bucketOf_lt k) ?_
  have := w.table.size_le
  rwa [Dict.size_eq_keys] at this

/-- The next key has fewer after it. -/
theorem left_next {w : Live hash cap} {k k' : α} (hk : k ∈ w.table.keys)
    (h : Walk.next w.table.keys (some k) = some k') :
    left w k' < left w k := by
  refine Walk.rank_next w.table.sorted w.table.dict.nodup hk (fun a _ => bucketOf_lt a) ?_ h
  have := w.table.size_le
  rwa [Dict.size_eq_keys] at this

section Steps

variable (changes : ℕ → List (Change α)) (text : α → Text) (w : Live hash cap)

/-- A lookup keeps the walk at its key. -/
theorem live_lookup (l : Locals α) : ∃ l', l'.currentKey = l.currentKey ∧
    step (live changes) text (w, .lookup l) = (w.advance changes, .next l') := by
  unfold step live answer
  simp only
  cases (w.advance changes).table.dict.get? l.currentKey with
  | none => exact ⟨l, rfl, rfl⟩
  | some v => exact ⟨{ l with value := v, res := l.res.set (text l.currentKey) v }, rfl, rfl⟩

variable {changes w}

/-- The dump is about to ask for the key after `k`. -/
def State.Asks (k : Option α) : State α → Prop
  | .first _ => k = none
  | .next l => k = some l.currentKey
  | _ => False

/-- Where there is a next key, the walk moves to it. -/
theorem live_moves {s : State α} {k : Option α} {k' : α} (hs : s.Asks k)
    (hk : Walk.next (w.advance changes).table.keys k = some k') :
    ∃ l, l.currentKey = k' ∧ step (live changes) text (w, s) = (w.advance changes, .lookup l) := by
  cases s with
  | first l =>
    cases hs
    refine ⟨{ l with firstKey := k', currentKey := k' }, rfl, ?_⟩
    unfold step live answer
    simp only [hk]
  | next l =>
    cases hs
    refine ⟨{ l with nextKey := k', currentKey := k' }, rfl, ?_⟩
    unfold step live answer
    simp only [hk]
  | lookup l => exact hs.elim
  | returned res => exact hs.elim
  | raised errno => exact hs.elim

/-- Where there is none, the walk ends. -/
theorem live_ends {s : State α} {k : Option α} (hs : s.Asks k)
    (hk : Walk.next (w.advance changes).table.keys k = none) :
    (step (live changes) text (w, s)).2.Ended := by
  cases s with
  | first l =>
    cases hs
    unfold step live answer
    simp only [hk]
    trivial
  | next l =>
    cases hs
    unfold step live answer
    simp only [hk]
    trivial
  | lookup l => exact hs.elim
  | returned res => exact hs.elim
  | raised errno => exact hs.elim

end Steps

/-! ## Runs -/

/-- After `n` calls and `r` restarts: with the keys asked about, what is left at the dump's key stays
below `r + 1` walks of the whole table. -/
def Within (changes : ℕ → List (Change α)) (r n : ℕ) : Live hash cap × State α → Prop
  | (w, .first _) => n = 0 ∧ w.turn = n
  | (w, .lookup l) => ∃ m, n = 2 * m + 1 ∧ w.turn = n ∧ l.currentKey ∈ w.table.keys ∧
      m + left w l.currentKey < (r + 1) * (buckets cap * cap)
  | (w, .next l) => ∃ m, n = 2 * m + 2 ∧ w.turn = n ∧ m < (r + 1) * (buckets cap * cap) ∧
      ((∀ c ∈ changes (n - 1), c.touches l.currentKey = false) →
        l.currentKey ∈ w.table.keys ∧ m + left w l.currentKey < (r + 1) * (buckets cap * cap))
  | (_, .returned _) => True
  | (_, .raised _) => True

/-- A walk that has ended is within every bound. -/
theorem Within.of_ended {changes : ℕ → List (Change α)} {r n : ℕ} {s : Live hash cap × State α} (h : s.2.Ended) :
    Within changes r n s := by
  obtain ⟨w, s⟩ := s
  cases s with
  | returned res => trivial
  | raised errno => trivial
  | first l => exact h.elim
  | lookup l => exact h.elim
  | next l => exact h.elim

/-- Without a restart the key has been let alone since the dump was given it. -/
theorem untouched_of_not_restarts {changes : ℕ → List (Change α)} {w : Live hash cap} {l : Locals α}
    (h : restarts changes (w, State.next l) = false) :
    (∀ c ∈ changes (w.turn - 1), c.touches l.currentKey = false) ∧
      ∀ c ∈ changes w.turn, c.touches l.currentKey = false := by
  replace h : (changes (w.turn - 1) ++ changes w.turn).any (Change.touches l.currentKey) = false := h
  rw [List.any_append, Bool.or_eq_false_iff, List.any_eq_false, List.any_eq_false] at h
  constructor
  · intro c hc
    exact Bool.eq_false_iff.2 (h.1 c hc)
  · intro c hc
    exact Bool.eq_false_iff.2 (h.2 c hc)

/-- **A call keeps the bound**, with one more walk for a restart. -/
theorem Within.step {changes : ℕ → List (Change α)} {text : α → Text} {r n : ℕ} {s : Live hash cap × State α}
    (h : Within changes r n s) :
    Within changes (r + if restarts changes s then 1 else 0) (n + 1) (step (live changes) text s) := by
  obtain ⟨w, s⟩ := s
  have hwalk : ∀ {w : Live hash cap} {k : α} (r), k ∈ w.table.keys →
      left w k < (r + 1) * (buckets cap * cap) := fun r hk =>
    (left_lt hk).trans_le (Nat.le_mul_of_pos_left _ (Nat.succ_pos r))
  cases s with
  | first l =>
    obtain ⟨rfl, hturn⟩ := h
    cases hkey : Walk.next (w.advance changes).table.keys none with
    | none => exact Within.of_ended (live_ends text rfl hkey)
    | some k =>
      obtain ⟨l', rfl, hstep⟩ := live_moves text (s := .first l) (k := none) rfl hkey
      rw [hstep]
      refine ⟨0, rfl, congrArg (· + 1) hturn, Walk.next_mem hkey, ?_⟩
      rw [Nat.zero_add]
      exact hwalk _ (Walk.next_mem hkey)
  | lookup l =>
    obtain ⟨m, hn, hturn, hmem, hleft⟩ := h
    obtain ⟨l', hkey, hstep⟩ := live_lookup changes text w l
    rw [hstep]
    refine ⟨m, by omega, congrArg (· + 1) hturn, by exact (Nat.le_add_right _ _).trans_lt hleft, ?_⟩
    rw [hkey, Nat.add_sub_cancel, ← hturn]
    intro hc
    obtain ⟨hmem', hleft'⟩ := advance_untouched hc hmem
    exact ⟨hmem', (Nat.add_le_add_left hleft' m).trans_lt hleft⟩
  | next l =>
    obtain ⟨m, hn, hturn, hm, huntouched⟩ := h
    cases hkey : Walk.next (w.advance changes).table.keys (some l.currentKey) with
    | none => exact Within.of_ended (live_ends text rfl hkey)
    | some k =>
      obtain ⟨l', rfl, hstep⟩ := live_moves text (s := .next l) (k := some l.currentKey) rfl hkey
      rw [hstep]
      refine ⟨m + 1, by omega, congrArg (· + 1) hturn, Walk.next_mem hkey, ?_⟩
      cases hre : restarts changes (w, State.next l) with
      | true =>
        have hone := left_lt (w := w.advance changes) (Walk.next_mem hkey)
        rw [if_pos rfl, Nat.succ_mul (r + 1)]
        exact Nat.add_lt_add_of_le_of_lt hm hone
      | false =>
        obtain ⟨hbefore, hnow⟩ := untouched_of_not_restarts hre
        rw [hturn] at hbefore
        obtain ⟨hmem, hleft⟩ := huntouched hbefore
        obtain ⟨hmem', hleft'⟩ := advance_untouched hnow hmem
        have := left_next hmem' hkey
        rw [if_neg Bool.false_ne_true, Nat.add_zero r]
        omega
  | returned res => trivial
  | raised errno => trivial

/-- After `n` steps a walk is within the bound of its restarts. -/
theorem within_run (text : α → Text) (zero : α) (changes : ℕ → List (Change α)) (t : HashMap hash cap) (n : ℕ) :
    Within changes (restartsIn text zero changes t n) n (run (live changes) text zero ⟨t, 0⟩ n) := by
  induction n with
  | zero => exact ⟨rfl, rfl⟩
  | succ n ih =>
    have hlast : run (live changes) text zero ⟨t, 0⟩ (n + 1) =
        Dump.step (live changes) text (run (live changes) text zero ⟨t, 0⟩ n) :=
      Function.iterate_succ_apply' _ _ _
    have hcount : restartsIn text zero changes t (n + 1) =
        restartsIn text zero changes t n + if restarts changes (run (live changes) text zero ⟨t, 0⟩ n)
          then 1 else 0 := by
      unfold restartsIn
      rw [List.range_succ, List.countP_append, List.countP_singleton]
    rw [hlast, hcount]
    exact ih.step

/-- A walk with at most `r` restarts ends in the steps that `r + 1` walks of a full table take. -/
theorem ends_of_restarts (text : α → Text) (zero : α) (changes : ℕ → List (Change α)) (t : HashMap hash cap) {r : ℕ}
    (hr : restartsIn text zero changes t (2 * ((r + 1) * (buckets cap * cap)) + 1) ≤ r) :
    (run (live changes) text zero ⟨t, 0⟩ (2 * ((r + 1) * (buckets cap * cap)) + 1)).2.Ended := by
  have h := within_run text zero changes t (2 * ((r + 1) * (buckets cap * cap)) + 1)
  have hmul : (restartsIn text zero changes t (2 * ((r + 1) * (buckets cap * cap)) + 1) + 1) * (buckets cap * cap) ≤
      (r + 1) * (buckets cap * cap) := Nat.mul_le_mul_right _ (Nat.succ_le_succ hr)
  cases hs : run (live changes) text zero ⟨t, 0⟩ (2 * ((r + 1) * (buckets cap * cap)) + 1) with
  | mk w s =>
    rw [hs] at h
    cases s with
    | first l =>
      obtain ⟨h0, -⟩ := h
      omega
    | lookup l =>
      obtain ⟨m, hn, -, -, hlt⟩ := h
      omega
    | next l =>
      obtain ⟨m, hn, -⟩ := h
      omega
    | returned res => trivial
    | raised errno => trivial

/-- **A dump is bounded by the restarts of its walk and the capacity of the map**: with at most `r` of them it
ends within `r + 1` walks of the table, two calls a key. -/
theorem dump_bounded (cap r : ℕ) :
    (∀ (hash : Ip4 → ℕ) (changes : ℕ → List (Change Ip4)) (t : HashMap hash cap),
      restartsIn keyToIp 0 changes t (2 * ((r + 1) * (buckets cap * cap)) + 1) ≤ r →
      (dumpMapU32 (live changes) ⟨t, 0⟩ (2 * ((r + 1) * (buckets cap * cap)) + 1)).2.Ended) ∧
    ∀ (hash : Ip6 → ℕ) (changes : ℕ → List (Change Ip6)) (t : HashMap hash cap),
      restartsIn keyToIpV6 (Vector.replicate 16 0) changes t (2 * ((r + 1) * (buckets cap * cap)) + 1) ≤ r →
      (dumpMapU32V6 (live changes) ⟨t, 0⟩ (2 * ((r + 1) * (buckets cap * cap)) + 1)).2.Ended := by
  constructor
  · intro hash changes t hr
    exact ends_of_restarts keyToIp 0 changes t hr
  · intro hash changes t hr
    exact ends_of_restarts keyToIpV6 _ changes t hr

/-- A hash that puts 10.0.0.1 in the first bucket and 10.0.0.2 in the second. -/
def lastByte (k : Ip4) : ℕ := if k = 33554442 then 1 else 0

theorem bucketOf_first (cap : ℕ) : bucketOf lastByte cap 16777226 = 0 := Nat.zero_mod (buckets cap)

/-- A map with the entries of 10.0.0.1 and 10.0.0.2. -/
def pair : HashMap lastByte 2 where
  dict := ⟨[(16777226, 1), (33554442, 1)], List.nodup_cons.2 ⟨by simp, List.nodup_singleton _⟩⟩
  sorted := List.pairwise_pair.2 ((bucketOf_first 2).trans_le (Nat.zero_le _))
  size_le := le_rfl

/-- The entry of 10.0.0.1 is taken away while the dump is there, and comes back when it has moved on. -/
def lifted (turn : ℕ) : List (Change Ip4) :=
  if turn = 2 then [.remove 16777226] else if turn = 3 then [.update 16777226 1] else []

/-- The one restart is at the key that was lifted. -/
theorem restartsIn_lifted : restartsIn keyToIp 0 lifted pair (2 * ((1 + 1) * (buckets 2 * 2)) + 1) = 1 := by
  decide +kernel

/-- One restart, and the dump ends within two walks of the table. -/
theorem dump_bounded_lifted :
    restartsIn keyToIp 0 lifted pair (2 * ((1 + 1) * (buckets 2 * 2)) + 1) = 1 ∧
      (dumpMapU32 (live lifted) ⟨pair, 0⟩ (2 * ((1 + 1) * (buckets 2 * 2)) + 1)).2.Ended :=
  ⟨restartsIn_lifted, (dump_bounded 2 1).1 lastByte lifted pair restartsIn_lifted.le⟩

/-! ## A dump without end -/

/-- A source whose block comes and goes: 10.0.0.2, while the one of 10.0.0.1 stays. -/
def flickering (turn : ℕ) : List (Change Ip4) :=
  if turn % 4 = 0 then [.remove 33554442] else if turn % 4 = 2 then [.update 33554442 1] else []

/-- A blacklist with the block of 10.0.0.1. -/
def oneBlock : HashMap lastByte MAX_ENTRIES := ⟨⟨[(16777226, 1)], by decide⟩, by simp [Dict.keys], by decide⟩

theorem buckets_MAX_ENTRIES : buckets MAX_ENTRIES = 65536 := by
  unfold buckets MAX_ENTRIES
  rw [show 65536 = 2 ^ 16 from rfl, Nat.clog_pow 2 16 (by decide)]

theorem oneBlock_remove : oneBlock.remove 33554442 = oneBlock := Table.ext_dict (Dict.ext_items rfl)

theorem oneBlock_update : (oneBlock.update 33554442 1).dict.items = [(16777226, 1), (33554442, 1)] := by
  have hbucket : ¬ bucketOf lastByte MAX_ENTRIES 33554442 ≤ bucketOf lastByte MAX_ENTRIES 16777226 := by
    unfold bucketOf
    rw [buckets_MAX_ENTRIES]
    decide
  rw [Table.items_update (by decide), oneBlock_remove]
  unfold oneBlock
  rw [List.orderedInsert_cons, if_neg hbucket]
  rfl

theorem oneBlock_update_remove : (oneBlock.update 33554442 1).remove 33554442 = oneBlock := by
  refine Table.ext_dict (Dict.ext_items ?_)
  rw [Table.items_remove, oneBlock_update]
  rfl

/-- A turn makes the changes of that turn. -/
theorem advance_eq {changes : ℕ → List (Change α)} {n : ℕ} {cs : List (Change α)} (h : changes n = cs)
    (t : HashMap hash cap) :
    Live.advance changes ⟨t, n⟩ = ⟨cs.foldl Change.apply t, n + 1⟩ := by
  subst h
  rfl

theorem flickering_remove {turn : ℕ} (h : turn % 4 = 0) : flickering turn = [.remove 33554442] := if_pos h

theorem flickering_update {turn : ℕ} (h : turn % 4 = 2) : flickering turn = [.update 33554442 1] := by
  unfold flickering
  rw [if_neg (by omega), if_pos h]

theorem flickering_quiet {turn : ℕ} (h : turn % 2 = 1) : flickering turn = [] := by
  unfold flickering
  rw [if_neg (by omega), if_neg (by omega)]

/-- From 10.0.0.1 the dump comes back to it in four calls: it asks for the key after 10.0.0.2 when
that one has gone. -/
theorem flickering_cycle (text : Ip4 → Text) (j : ℕ) (l : Locals Ip4) (hl : l.currentKey = 16777226) :
    ∃ l', l'.currentKey = 16777226 ∧
      (step (live flickering) text)^[4] (⟨oneBlock, 4 * j + 1⟩, .lookup l) =
        (⟨oneBlock, 4 * (j + 1) + 1⟩, .lookup l') := by
  -- the tables that the four calls meet
  have h1 : Live.advance flickering ⟨oneBlock, 4 * j + 1⟩ = ⟨oneBlock, 4 * j + 2⟩ :=
    advance_eq (flickering_quiet (by omega)) oneBlock
  have h2 : Live.advance flickering ⟨oneBlock, 4 * j + 2⟩ = ⟨oneBlock.update 33554442 1, 4 * j + 3⟩ :=
    advance_eq (flickering_update (by omega)) oneBlock
  have h3 : Live.advance flickering ⟨oneBlock.update 33554442 1, 4 * j + 3⟩ = ⟨oneBlock.update 33554442 1, 4 * j + 4⟩ :=
    advance_eq (flickering_quiet (by omega)) (oneBlock.update 33554442 1)
  have h4 : Live.advance flickering ⟨oneBlock.update 33554442 1, 4 * j + 4⟩ = ⟨oneBlock, 4 * j + 5⟩ := by
    rw [advance_eq (flickering_remove (by omega : (4 * j + 4) % 4 = 0))]
    exact congrArg₂ Live.mk oneBlock_update_remove rfl
  have hkeys : (oneBlock.update 33554442 1).keys = [16777226, 33554442] := congrArg (List.map Prod.fst) oneBlock_update
  obtain ⟨l1, hl1, hs1⟩ := live_lookup flickering text ⟨oneBlock, 4 * j + 1⟩ l
  rw [h1] at hs1
  have hn2 : Walk.next (Live.advance flickering ⟨oneBlock, 4 * j + 2⟩).table.keys (some l1.currentKey) =
      some 33554442 := by
    rw [h2, hl1, hl]
    change Walk.next (oneBlock.update 33554442 1).keys _ = _
    rw [hkeys]
    decide
  obtain ⟨l2, hl2, hs2⟩ := live_moves text (s := .next l1) (k := some l1.currentKey) rfl hn2
  rw [h2] at hs2
  obtain ⟨l3, hl3, hs3⟩ := live_lookup flickering text ⟨oneBlock.update 33554442 1, 4 * j + 3⟩ l2
  rw [h3] at hs3
  have hn4 : Walk.next (Live.advance flickering ⟨oneBlock.update 33554442 1, 4 * j + 4⟩).table.keys
    (some l3.currentKey) =
      some 16777226 := by
    rw [h4, hl3, hl2]
    rfl
  obtain ⟨l4, hl4, hs4⟩ := live_moves text (s := .next l3) (k := some l3.currentKey) rfl hn4
  rw [h4] at hs4
  refine ⟨l4, hl4, ?_⟩
  rw [Function.iterate_succ_apply, hs1, Function.iterate_succ_apply, hs2, Function.iterate_succ_apply, hs3,
    Function.iterate_one, hs4]
  rfl

/-- Every four steps the walk is where it was. -/
theorem flickering_run (text : Ip4 → Text) (zero : Ip4) (j : ℕ) :
    ∃ l, l.currentKey = 16777226 ∧
      run (live flickering) text zero ⟨oneBlock, 0⟩ (4 * j + 1) = (⟨oneBlock, 4 * j + 1⟩, .lookup l) := by
  induction j with
  | zero =>
    have h0 : Live.advance flickering ⟨oneBlock, 0⟩ = ⟨oneBlock, 1⟩ := congrArg₂ Live.mk oneBlock_remove rfl
    have hfirst : Walk.next (Live.advance flickering ⟨oneBlock, 0⟩).table.keys none = some 16777226 := by
      rw [h0]
      decide
    obtain ⟨l, hl, hs⟩ := live_moves text (s := .first ⟨zero, zero, zero, 0, Dict.empty⟩) (k := none) rfl hfirst
    rw [h0] at hs
    exact ⟨l, hl, hs⟩
  | succ j ih =>
    obtain ⟨l, hl, hrun⟩ := ih
    obtain ⟨l', hl', hcycle⟩ := flickering_cycle text j l hl
    refine ⟨l', hl', ?_⟩
    rw [← hcycle, ← hrun, show 4 * (j + 1) + 1 = 4 + (4 * j + 1) by omega]
    exact Function.iterate_add_apply _ 4 (4 * j + 1) _

/-- **A dump need not end**: while the block of 10.0.0.2 comes and goes, it walks from 10.0.0.1 to
10.0.0.2 over and over. -/
theorem dump_never_ends :
    ¬ ∃ bound, ∀ (hash : Ip4 → ℕ) (changes : ℕ → List (Change Ip4)) (t : HashMap hash MAX_ENTRIES),
      (dumpMapU32 (live changes) ⟨t, 0⟩ bound).2.Ended := by
  rintro ⟨bound, h⟩
  obtain ⟨l, -, hrun⟩ := flickering_run keyToIp 0 bound
  have hend := h lastByte flickering oneBlock
  have hlater := run_of_ended (by omega : bound ≤ 4 * bound + 1) hend
  unfold dumpMapU32 at hend
  rw [← hlater, hrun] at hend
  exact hend

end Dump

end FluxGuard
