import FluxGuard.Model.Dump
import FluxGuard.Proof.IpText

/-!
# What a dump returns

* `dump_whole`: **of a map that does not change, a dump returns every entry, and ends.**
* `failed_dump_iff`: a failed call raises exactly when it is the first one; the other two sites
  swallow every errno, and the map comes back short.
-/

namespace FluxGuard

namespace Dump

variable {σ α : Type} {text : α → Text}

/-! ## Ends -/

/-- The dump has returned or raised. -/
def State.Ended : State α → Prop
  | .returned _ => True
  | .raised _ => True
  | _ => False

/-- The dump has raised an `OSError`. -/
def State.Raised (s : State α) : Prop := ∃ errno, s = .raised errno

/-- The dump has returned the whole map: each entry under the text of its key. -/
def State.Whole (text : α → Text) (m : Dict α UInt32) (s : State α) : Prop :=
  ∃ res, s = .returned res ∧ res.items = m.items.map fun q => (text q.1, q.2)

/-- A walk that has ended stays ended. -/
theorem ended_step {host : Host σ α} {w : σ} {s : State α} (h : s.Ended) : step host text (w, s) = (w, s) := by
  cases s with
  | returned res => rfl
  | raised errno => rfl
  | first l => exact h.elim
  | lookup l => exact h.elim
  | next l => exact h.elim

/-- A dump that has ended stays as it is. -/
theorem run_of_ended {host : Host σ α} {zero : α} {w : σ} {n N : ℕ} (hle : n ≤ N)
    (h : (run host text zero w n).2.Ended) :
    run host text zero w N = run host text zero w n := by
  obtain ⟨d, rfl⟩ := Nat.exists_eq_add_of_le hle
  induction d with
  | zero => rfl
  | succ d ih =>
    have hlast : run host text zero w (n + (d + 1)) = step host text (run host text zero w (n + d)) :=
      Function.iterate_succ_apply' _ _ _
    rw [hlast, ih (Nat.le_add_right n d)]
    exact ended_step h

/-! ## The walk over a map that does not change -/

section Frozen

variable [DecidableEq α] (fail : ℕ → Option ℕ)

/-- The entries a walk over the rest of the map collects, its next call being the one after `t` others. -/
def collected : ℕ → List (α × UInt32) → List (α × UInt32)
  | _, [] => []
  | t, p :: l =>
    (if fail t = none then [p] else []) ++ if fail (t + 1) = none then collected (t + 2) l else []

variable {fail} {m : Dict α UInt32}

/-- What a lookup leaves of the dictionary: the entry is in it unless the call fails. -/
def looked (text : α → Text) (fail : Option ℕ) (l : Locals α) (v : UInt32) : Locals α :=
  if fail = none then { l with value := v, res := l.res.set (text l.currentKey) v } else l

/-- A lookup of a key of the map finds its value. -/
theorem step_lookup {l : Locals α} {t : ℕ} {v : UInt32} (hv : m.get? l.currentKey = some v) :
    step (frozen m fail) text (t, .lookup l) = (t + 1, .next (looked text (fail t) l v)) := by
  unfold step frozen answer looked
  simp only [hv]
  cases fail t with
  | none => rfl
  | some errno => rfl

/-- The next call moves to the next key. -/
theorem step_next {l : Locals α} {t : ℕ} {k : α} (hfail : fail t = none)
    (hk : Walk.next m.keys (some l.currentKey) = some k) :
    step (frozen m fail) text (t, .next l) = (t + 1, .lookup { l with nextKey := k, currentKey := k }) := by
  unfold step frozen answer
  simp only [hfail, hk]

/-- A call that fails, or finds no next key, ends the walk. -/
theorem step_next_end (text : α → Text) {l : Locals α} {t : ℕ}
    (h : fail t ≠ none ∨ Walk.next m.keys (some l.currentKey) = none) :
    step (frozen m fail) text (t, .next l) = (t + 1, .returned l.res) := by
  unfold step frozen answer
  simp only
  cases hfail : fail t with
  | none =>
    have hk := h.resolve_left fun hne => hne hfail
    simp only [hk]
  | some errno => rfl

omit [DecidableEq α] in

/-- A lookup leaves the walk at its key. -/
theorem currentKey_looked (fail : Option ℕ) (l : Locals α) (v : UInt32) :
    (looked text fail l v).currentKey = l.currentKey := by
  unfold looked
  split <;> rfl

omit [DecidableEq α] in

/-- A lookup that does not fail collects its pair. -/
theorem items_looked {fail : Option ℕ} {l : Locals α} {p : α × UInt32} (hp : l.currentKey = p.1)
    (hnew : text p.1 ∉ l.res) :
    (looked text fail l p.2).res.items = l.res.items ++ (if fail = none then [p] else []).map fun q =>
      (text q.1, q.2) := by
  unfold looked
  by_cases h : fail = none
  · rw [if_pos h, if_pos h, hp]
    exact Dict.items_set_of_not_mem p.2 hnew
  · rw [if_neg h, if_neg h]
    exact (List.append_nil _).symm

/-- The key after a key of the map is the first of those left. -/
theorem next_items {pre rest : List (α × UInt32)} {p : α × UInt32} (h : m.items = pre ++ p :: rest) :
    Walk.next m.keys (some p.1) = (rest.map Prod.fst).head? := by
  have hkeys : m.keys = pre.map Prod.fst ++ p.1 :: rest.map Prod.fst := by
    unfold Dict.keys
    rw [h, List.map_append, List.map_cons]
  have hnot : p.1 ∉ pre.map Prod.fst := by
    have hnodup : m.keys.Nodup := m.nodup
    rw [hkeys] at hnodup
    intro hm
    exact (List.nodup_append.1 hnodup).2.2 p.1 hm p.1 List.mem_cons_self rfl
  rw [Walk.next_of_mem (by rw [hkeys]; exact List.mem_append_right _ List.mem_cons_self), hkeys, Walk.after_append hnot]

omit [DecidableEq α] in

/-- One pair is collected unless its call fails. -/
theorem collected_singleton (t : ℕ) (p : α × UInt32) : collected fail t [p] = if fail t = none then [p] else [] := by
  unfold collected
  rw [show collected fail (t + 2) ([] : List (α × UInt32)) = [] from rfl, ite_self, List.append_nil]

omit [DecidableEq α] in
/-- Nothing is there that is not in the map. -/
theorem collected_sublist (fail : ℕ → Option ℕ) (l : List (α × UInt32)) : ∀ t, (collected fail t l).Sublist l := by
  induction l with
  | nil =>
    intro t
    exact List.Sublist.slnil
  | cons p l ih =>
    intro t
    have hhead : (if fail t = none then [p] else []).Sublist [p] := by
      split
      · exact List.Sublist.refl _
      · exact List.nil_sublist _
    have htail : (if fail (t + 1) = none then collected fail (t + 2) l else []).Sublist l := by
      split
      · exact ih (t + 2)
      · exact List.nil_sublist _
    exact hhead.append htail

omit [DecidableEq α] in
/-- Nothing is missing when the entry is there, and the rest is walked to and not missing either. -/
theorem collected_cons_eq {t : ℕ} {p : α × UInt32} {l : List (α × UInt32)} :
    collected fail t (p :: l) = p :: l ↔
      fail t = none ∧ (l = [] ∨ fail (t + 1) = none ∧ collected fail (t + 2) l = l) := by
  have hcons : collected fail t (p :: l) =
      (if fail t = none then [p] else []) ++ if fail (t + 1) = none then collected fail (t + 2) l else [] := rfl
  rw [hcons]
  by_cases hlookup : fail t = none
  · rw [and_iff_right hlookup, if_pos hlookup, List.singleton_append, List.cons_inj_right]
    by_cases hnext : fail (t + 1) = none
    · rw [if_pos hnext, and_iff_right hnext]
      refine ⟨Or.inr, fun h => h.elim (fun hl => ?_) id⟩
      subst hl
      rfl
    · rw [if_neg hnext]
      constructor
      · intro h
        exact Or.inl h.symm
      · rintro (hl | ⟨h, -⟩)
        · exact hl.symm
        · exact absurd h hnext
  · refine iff_of_false (fun h => ?_) fun h => hlookup h.1
    -- one entry short
    have hlen := congrArg List.length h
    have hrest := (collected_sublist fail l (t + 2)).length_le
    rw [if_neg hlookup, List.nil_append, List.length_cons] at hlen
    split at hlen
    · omega
    · simp at hlen

omit [DecidableEq α] in
/-- Nothing is missing exactly when no call before the last one fails. -/
theorem collected_eq_iff (l : List (α × UInt32)) :
    ∀ t, collected fail t l = l ↔ ∀ i, i + 1 < 2 * l.length → fail (t + i) = none := by
  induction l with
  | nil =>
    intro t
    exact iff_of_true rfl fun i hi => absurd hi (by simp)
  | cons p l ih =>
    intro t
    rw [collected_cons_eq, ih (t + 2), List.length_cons]
    constructor
    · rintro ⟨hlookup, hrest⟩ i hi
      cases i with
      | zero => exact hlookup
      | succ i =>
        have hne : l ≠ [] := by
          rintro rfl
          simp at hi
        obtain ⟨hnext, hrest⟩ := hrest.resolve_left hne
        cases i with
        | zero => exact hnext
        | succ i =>
          have := hrest i (by omega)
          rwa [show t + 2 + i = t + (i + 1 + 1) by omega] at this
    · intro h
      refine ⟨h 0 (by omega), ?_⟩
      by_cases hl : l = []
      · exact Or.inl hl
      · have hpos := List.length_pos_iff.2 hl
        refine Or.inr ⟨h 1 (by omega), fun i hi => ?_⟩
        have := h (i + 2) (by omega)
        rwa [show t + (i + 2) = t + 2 + i by omega] at this

/-- After a lookup the walk goes on with the pairs left. -/
theorem after_lookup (fail : ℕ → Option ℕ) {pre rest : List (α × UInt32)} {p : α × UInt32} {l : Locals α} (t : ℕ)
    (hm : m.items = pre ++ p :: rest)
    (hp : l.currentKey = p.1)
    (hnodup : ((l.res.items ++ (p :: rest).map fun q => (text q.1, q.2)).map Prod.fst).Nodup) :
    step (frozen m fail) text (t, .lookup l) = (t + 1, .next (looked text (fail t) l p.2)) ∧
      (looked text (fail t) l p.2).res.items =
        l.res.items ++ (if fail t = none then [p] else []).map fun q => (text q.1, q.2) := by
  constructor
  · refine step_lookup ?_
    rw [hp, ← Dict.mem_items_iff, hm]
    exact List.mem_append_right _ List.mem_cons_self
  · refine items_looked hp ?_
    rw [List.map_append] at hnodup
    intro hmem
    exact (List.nodup_append.1 hnodup).2.2 (text p.1) hmem (text p.1) List.mem_cons_self rfl

/-- **From an entry on**, a dump collects what the failing calls leave. -/
theorem walk_collects (m : Dict α UInt32) (fail : ℕ → Option ℕ) (text : α → Text) (rest : List (α × UInt32)) :
    ∀ (pre : List (α × UInt32)) (p : α × UInt32) (l : Locals α) (t : ℕ), m.items = pre ++ p :: rest →
      l.currentKey = p.1 → ((l.res.items ++ (p :: rest).map fun q => (text q.1, q.2)).map Prod.fst).Nodup →
      ∃ n ≤ 2 * (rest.length + 1), ∃ t' res, (step (frozen m fail) text)^[n] (t, .lookup l) = (t', .returned res) ∧
        res.items = l.res.items ++ (collected fail t (p :: rest)).map fun q => (text q.1, q.2) := by
  induction rest with
  | nil =>
    intro pre p l t hm hp hnodup
    obtain ⟨hlooked, hitems⟩ := after_lookup fail t hm hp hnodup
    have hlast : Walk.next m.keys (some (looked text (fail t) l p.2).currentKey) = none := by
      rw [currentKey_looked, hp, next_items hm]
      rfl
    refine ⟨2, le_rfl, t + 2, (looked text (fail t) l p.2).res, ?_, ?_⟩
    · rw [Function.iterate_succ_apply, hlooked]
      exact step_next_end text (Or.inr hlast)
    · rw [hitems, collected_singleton]
  | cons q rest ih =>
    intro pre p l t hm hp hnodup
    obtain ⟨hlooked, hitems⟩ := after_lookup fail t hm hp hnodup
    by_cases hnext : fail (t + 1) = none
    · have hkey : Walk.next m.keys (some (looked text (fail t) l p.2).currentKey) = some q.1 := by
        rw [currentKey_looked, hp, next_items hm]
        rfl
      have hrest : ((looked text (fail t) l p.2).res.items ++ (q :: rest).map fun q => (text q.1, q.2)).map Prod.fst
          |>.Nodup := by
        rw [hitems]
        refine hnodup.sublist (List.Sublist.map _ ?_)
        rw [List.append_assoc, List.map_cons (l := q :: rest)]
        refine List.Sublist.append_left ?_ _
        split
        · exact List.Sublist.refl _
        · exact List.sublist_cons_self _ _
      obtain ⟨n, hn, t', res, hrun, hres⟩ := ih (pre ++ [p]) q
        { looked text (fail t) l p.2 with nextKey := q.1, currentKey := q.1 } (t + 2)
          (by rw [hm, List.append_cons]) rfl hrest
      refine ⟨n + 2, by rw [List.length_cons]; omega, t', res, ?_, ?_⟩
      · rw [Function.iterate_succ_apply, hlooked, Function.iterate_succ_apply, step_next hnext hkey]
        exact hrun
      · rw [hres, hitems, List.append_assoc, ← List.map_append]
        conv_rhs => unfold collected
        rw [if_pos hnext]
    · refine ⟨2, by rw [List.length_cons]; omega, t + 2, (looked text (fail t) l p.2).res, ?_, ?_⟩
      · rw [Function.iterate_succ_apply, hlooked]
        exact step_next_end text (Or.inl hnext)
      · rw [hitems]
        unfold collected
        rw [if_neg hnext, List.append_nil]

/-- **What a dump of such a map comes to**: the errno of a failing first call, or the entries that the
failing calls leave. -/
theorem run_frozen (htext : Function.Injective text) (zero : α) (m : Dict α UInt32) (fail : ℕ → Option ℕ)
    (hfail : ∀ t errno, fail t = some errno → errno ≠ ENOENT) :
    (∃ errno, fail 0 = some errno ∧ (run (frozen m fail) text zero 0 (2 * m.size + 1)).2 = .raised errno) ∨
      (fail 0 = none ∧ ∃ res, (run (frozen m fail) text zero 0 (2 * m.size + 1)).2 = .returned res ∧
        res.items = (collected fail 1 m.items).map fun q => (text q.1, q.2)) := by
  cases hfirst : fail 0 with
  | some errno =>
    have hone : run (frozen m fail) text zero 0 1 = (1, .raised errno) := by
      unfold run
      rw [Function.iterate_one]
      unfold step frozen answer
      simp only [hfirst, if_neg (hfail 0 errno hfirst)]
    refine Or.inl ⟨errno, rfl, ?_⟩
    rw [run_of_ended (by omega : 1 ≤ 2 * m.size + 1) (by rw [hone]; trivial), hone]
  | none =>
    refine Or.inr ⟨rfl, ?_⟩
    cases hm : m.items with
    | nil =>
      have hnone : Walk.next m.keys none = none := by
        rw [Walk.next_none, Dict.keys, hm]
        rfl
      have hone : run (frozen m fail) text zero 0 1 = (1, .returned Dict.empty) := by
        unfold run
        rw [Function.iterate_one]
        unfold step frozen answer
        simp only [hfirst, hnone, if_pos]
      refine ⟨Dict.empty, ?_, rfl⟩
      rw [run_of_ended (by omega : 1 ≤ 2 * m.size + 1) (by rw [hone]; trivial), hone]
    | cons p rest =>
      have hsome : Walk.next m.keys none = some p.1 := by
        rw [Walk.next_none, Dict.keys, hm]
        rfl
      have hsize : m.size = rest.length + 1 := by rw [Dict.size, hm, List.length_cons]
      have hnodup : ((m.items.map fun q => (text q.1, q.2)).map Prod.fst).Nodup := by
        have := m.nodup.map htext
        rw [List.map_map] at this ⊢
        exact this
      obtain ⟨n, hn, t', res, hwalk, hres⟩ := walk_collects m fail text rest [] p
        ⟨p.1, p.1, zero, 0, Dict.empty⟩ 1 hm rfl (by rw [← hm]; exact hnodup)
      have hrun : run (frozen m fail) text zero 0 (n + 1) = (t', .returned res) := by
        have hstep : step (frozen m fail) text (0, .first ⟨zero, zero, zero, 0, Dict.empty⟩) =
            (1, .lookup ⟨p.1, p.1, zero, 0, Dict.empty⟩) := by
          unfold step frozen answer
          simp only [hfirst, hsome]
        unfold run
        rw [Function.iterate_succ_apply, hstep, hwalk]
      refine ⟨res, ?_, hres⟩
      rw [run_of_ended (by omega : n + 1 ≤ 2 * m.size + 1) (by rw [hrun]; trivial), hrun]

/-- A dump of such a map by its result: it raises when its first call fails, and is whole when no other
call before the last one fails. -/
theorem outcome_iff (htext : Function.Injective text) (zero : α) (m : Dict α UInt32) (fail : ℕ → Option ℕ)
    (hfail : ∀ t errno, fail t = some errno → errno ≠ ENOENT) :
    ((run (frozen m fail) text zero 0 (2 * m.size + 1)).2.Raised ↔ fail 0 ≠ none) ∧
      ((run (frozen m fail) text zero 0 (2 * m.size + 1)).2.Whole text m ↔
        fail 0 = none ∧ ∀ t, 0 < t → t < 2 * m.size → fail t = none) := by
  have hpair : Function.Injective fun q : α × UInt32 => (text q.1, q.2) := by
    intro p q h
    rw [Prod.mk.injEq] at h
    exact Prod.ext (htext h.1) h.2
  rcases run_frozen htext zero m fail hfail with ⟨errno, hfirst, hend⟩ | ⟨hfirst, res, hend, hres⟩
  · rw [hend, hfirst]
    constructor
    · exact iff_of_true ⟨errno, rfl⟩ (Option.some_ne_none errno)
    · refine iff_of_false ?_ fun h => Option.some_ne_none errno h.1
      rintro ⟨res, hres, -⟩
      cases hres
  · rw [hend, hfirst]
    constructor
    · refine iff_of_false ?_ fun h => h rfl
      rintro ⟨errno, herr⟩
      cases herr
    · have hwhole : (State.returned res : State α).Whole text m ↔ collected fail 1 m.items = m.items := by
        unfold State.Whole
        constructor
        · rintro ⟨res', hres', hitems⟩
          cases hres'
          exact List.map_injective_iff.2 hpair (hres.symm.trans hitems)
        · intro h
          exact ⟨res, rfl, by rw [hres, h]⟩
      rw [hwhole, collected_eq_iff]
      constructor
      · intro h
        refine ⟨rfl, fun t ht0 ht => ?_⟩
        have := h (t - 1) (by unfold Dict.size at ht; omega)
        rwa [show 1 + (t - 1) = t by omega] at this
      · rintro ⟨-, h⟩ i hi
        exact h (1 + i) (by omega) (by unfold Dict.size; omega)

end Frozen

/-- **A dump of a map that does not change ends, and returns each entry** under the text of its key,
and nothing else. -/
theorem dump_whole :
    (∀ m : Dict Ip4 UInt32, (dumpMapU32 (frozen m fun _ => none) 0 (2 * m.size + 1)).2.Whole keyToIp m) ∧
      ∀ m : Dict Ip6 UInt32, (dumpMapU32V6 (frozen m fun _ => none) 0 (2 * m.size + 1)).2.Whole keyToIpV6 m := by
  constructor
  · intro m
    exact (outcome_iff keyToIp_injective 0 m (fun _ => none) (fun _ _ h => nomatch h)).2.2 ⟨rfl, fun _ _ _ => rfl⟩
  · intro m
    exact (outcome_iff keyToIpV6_injective _ m (fun _ => none) (fun _ _ h => nomatch h)).2.2 ⟨rfl, fun _ _ _ => rfl⟩

/-- **When a failed call raises**: exactly when it is the first one. A failure of any other call before the
last one leaves entries out of what is returned. -/
theorem failed_dump_iff (m : Dict Ip4 UInt32) (m6 : Dict Ip6 UInt32) (fail : ℕ → Option ℕ)
    (hfail : ∀ t errno, fail t = some errno → errno ≠ ENOENT) :
    (((dumpMapU32 (frozen m fail) 0 (2 * m.size + 1)).2.Raised ↔ fail 0 ≠ none) ∧
      ((dumpMapU32 (frozen m fail) 0 (2 * m.size + 1)).2.Whole keyToIp m ↔
        fail 0 = none ∧ ∀ t, 0 < t → t < 2 * m.size → fail t = none)) ∧
    ((dumpMapU32V6 (frozen m6 fail) 0 (2 * m6.size + 1)).2.Raised ↔ fail 0 ≠ none) ∧
      ((dumpMapU32V6 (frozen m6 fail) 0 (2 * m6.size + 1)).2.Whole keyToIpV6 m6 ↔
        fail 0 = none ∧ ∀ t, 0 < t → t < 2 * m6.size → fail t = none) := by
  constructor
  · exact outcome_iff keyToIp_injective 0 m fail hfail
  · exact outcome_iff keyToIpV6_injective _ m6 fail hfail

/-- A map with the blocks of 10.0.0.1 and 10.0.0.2. -/
def twoBlocks : Dict Ip4 UInt32 := ⟨[(16777226, 1), (33554442, 1)], by decide⟩

/-- `ENOMEM` for the call after `t` others. -/
def failsAt (t : ℕ) : ℕ → Option ℕ := fun t' => if t' = t then some 12 else none

theorem failsAt_ne_enoent {t t' errno : ℕ} (h : failsAt t t' = some errno) : errno ≠ ENOENT := by
  unfold failsAt at h
  split at h
  · cases h
    decide
  · cases h

/-- The first call fails, and the second. -/
theorem failed_dump_iff_twoBlocks :
    (dumpMapU32 (frozen twoBlocks (failsAt 0)) 0 5).2.Raised ∧
      ¬ (dumpMapU32 (frozen twoBlocks (failsAt 1)) 0 5).2.Whole keyToIp twoBlocks := by
  obtain ⟨⟨hraised, -⟩, -⟩ := failed_dump_iff twoBlocks Dict.empty (failsAt 0) fun _ _ => failsAt_ne_enoent
  obtain ⟨⟨-, hwhole⟩, -⟩ := failed_dump_iff twoBlocks Dict.empty (failsAt 1) fun _ _ => failsAt_ne_enoent
  refine ⟨hraised.2 (by decide), fun h => ?_⟩
  have := (hwhole.1 h).2 1 (by decide) (by decide)
  exact absurd this (by decide)

/-- **A failed call shortens the map**: the call for the key after 10.0.0.1 fails, and 10.0.0.2 is missing. -/
theorem short_dump :
    (dumpMapU32 (frozen twoBlocks (failsAt 2)) 0 5).2 = .returned ⟨[("10.0.0.1".toList, 1)], by decide⟩ := by
  rfl

end Dump

end FluxGuard
