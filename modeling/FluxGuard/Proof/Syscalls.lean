import FluxGuard.Model.Dump
import FluxGuard.Proof.Shields

/-!
# The brain's dump and its system calls

The brain's `dumpMap` takes a dump as one call with its lookups, the machine of `Dump` makes one
system call after the other. Both are the same dump.

* `Reached`: where a dump stands, its kernel and its result are those of some lookups.
* `exists_run`: some calls of the machine make any given lookups.
* `dump_calls`: the ends of the machine, on every such kernel, are the outcomes of `dumpMap`.
-/

namespace FluxGuard.Dump

section Behind

variable {α : Type} [DecidableEq α]

/-- What a dump has come to: its result, `some none` for an `OSError`, and `none` as long as it has not ended. -/
def State.outcome : State α → Option (Option (Dict Text UInt32))
  | .returned res => some (some res)
  | .raised _ => some none
  | _ => none

/-! ## From the calls to the lookups -/

variable {text : α → Text} {sel : Kernel → Dict α UInt32} {turns : ℕ → Turn α}

/-- The result and the kernel are those of lookups on the way from `k`, and of what the host did since. -/
def Reached (text : α → Text) (sel : Kernel → Dict α UInt32) (k : Kernel) (res : Dict Text UInt32)
    (K : Kernel) : Prop :=
  ∃ (keys : List (List Event × α)) (es : List Event), (keys.foldl (lookup text sel) (k, Dict.empty)).2 = res ∧
    FluxGuard.run (keys.foldl (lookup text sel) (k, Dict.empty)).1 es = K

theorem Reached.run {k K : Kernel} {res : Dict Text UInt32} (h : Reached text sel k res K) (fs : List Event) :
    Reached text sel k res (FluxGuard.run K fs) := by
  obtain ⟨keys, es, hres, hK⟩ := h
  refine ⟨keys, es ++ fs, hres, ?_⟩
  rw [run_append, hK]

theorem Reached.found {k K : Kernel} {res : Dict Text UInt32} (h : Reached text sel k res K) (fs : List Event) {a : α}
    {v : UInt32} (hv : (sel (FluxGuard.run K fs)).get? a = some v) :
    Reached text sel k (res.set (text a) v) (FluxGuard.run K fs) := by
  obtain ⟨keys, es, hres, hK⟩ := h
  refine ⟨keys ++ [(es ++ fs, a)], [], ?_, ?_⟩
  · rw [List.foldl_append, List.foldl_cons, List.foldl_nil, lookup]
    simp only [run_append, hK, hv, hres]
  · rw [List.foldl_append, List.foldl_cons, List.foldl_nil, lookup]
    simp only [run_append, hK]
    rfl

/-- Where the machine stands when it began with kernel `k`. -/
def Stands (text : α → Text) (sel : Kernel → Dict α UInt32) (turns : ℕ → Turn α) (k : Kernel) :
    (Kernel × ℕ) × State α → Prop
  | ((K, t), .first l) => K = k ∧ t = 0 ∧ l.res = Dict.empty
  | ((K, _), .lookup l) => Reached text sel (FluxGuard.run k (turns 0).events) l.res K
  | ((K, _), .next l) => Reached text sel (FluxGuard.run k (turns 0).events) l.res K
  | ((K, _), .returned res) => Reached text sel (FluxGuard.run k (turns 0).events) res K
  | ((K, _), .raised _) => K = FluxGuard.run k (turns 0).events

theorem stands_step {k : Kernel} {s : (Kernel × ℕ) × State α} (h : Stands text sel turns k s) :
    Stands text sel turns k (step (behind sel turns) text s) := by
  obtain ⟨⟨K, t⟩, s⟩ := s
  cases s with
  | first l =>
    obtain ⟨rfl, rfl, hres⟩ := h
    have hempty : Reached text sel (FluxGuard.run K (turns 0).events) l.res (FluxGuard.run K (turns 0).events) :=
      ⟨[], [], hres.symm, rfl⟩
    unfold step behind
    simp only
    cases answer (turns 0).fail (turns 0).key with
    | ok a => exact hempty
    | error errno =>
      by_cases herrno : errno = ENOENT
      · simp only [herrno, if_true]
        exact hempty
      · simp only [herrno, if_false]
        rfl
  | lookup l =>
    have hrun : Reached text sel _ l.res _ := Reached.run h (turns t).events
    unfold step behind
    simp only
    cases hv : (sel (FluxGuard.run K (turns t).events)).get? l.currentKey with
    | none => cases (turns t).fail <;> exact hrun
    | some v =>
      cases (turns t).fail with
      | none => exact Reached.found h _ hv
      | some errno => exact hrun
  | next l =>
    have hrun : Reached text sel _ l.res _ := Reached.run h (turns t).events
    unfold step behind
    simp only
    cases answer (turns t).fail (turns t).key with
    | ok a => exact hrun
    | error errno => exact hrun
  | returned res => exact h
  | raised errno => exact h

theorem stands_run (text : α → Text) (sel : Kernel → Dict α UInt32) (turns : ℕ → Turn α) (zero : α)
    (k : Kernel) (n : ℕ) :
    Stands text sel turns k (run (behind sel turns) text zero (k, 0) n) := by
  unfold run
  induction n with
  | zero => exact ⟨rfl, rfl, rfl⟩
  | succ n ih =>
    rw [Function.iterate_succ_apply']
    exact stands_step ih

/-! ## From the lookups to the calls -/

/-- The calls that make the given lookups, after `es` before the first of them and with `last` before the last. -/
def turnsOf (last : List Event) : List Event → List (List Event × α) → ℕ → Turn α
  | es, [], _ => ⟨es ++ last, none, none⟩
  | es, key :: _, 0 => ⟨es, none, some key.2⟩
  | _, key :: _, 1 => ⟨key.1, none, none⟩
  | _, _ :: keys, t + 2 => turnsOf last [] keys t

/-- One lookup, as the brain takes it. -/
theorem step_as_lookup (text : α → Text) (sel : Kernel → Dict α UInt32) {turns : ℕ → Turn α} {t : ℕ}
    (K : Kernel) (l : Locals α) {key : List Event × α} (hkey : l.currentKey = key.2)
    (ht : turns t = ⟨key.1, none, none⟩) :
    ∃ l' : Locals α, step (behind sel turns) text ((K, t), .lookup l) =
      (((lookup text sel (K, l.res) key).1, t + 1), .next l') ∧
      l'.res = (lookup text sel (K, l.res) key).2 := by
  rw [step, behind, lookup]
  simp only [ht, hkey]
  cases (sel (FluxGuard.run K key.1)).get? key.2 with
  | none => exact ⟨_, rfl, rfl⟩
  | some v => exact ⟨_, rfl, rfl⟩

/-- The lookups from a `GET_NEXT_KEY` on. -/
theorem exists_run (text : α → Text) (sel : Kernel → Dict α UInt32) (turns : ℕ → Turn α) (last : List Event)
    (keys : List (List Event × α)) :
    ∀ (es : List Event) (K : Kernel) (t : ℕ) (l : Locals α), (∀ i, turns (t + i) = turnsOf last es keys i) →
      ∃ n t', (step (behind sel turns) text)^[n] ((K, t), .next l) =
        ((FluxGuard.run (keys.foldl (lookup text sel) (FluxGuard.run K es, l.res)).1 last, t'),
          .returned (keys.foldl (lookup text sel) (FluxGuard.run K es, l.res)).2) := by
  induction keys with
  | nil =>
    intro es K t l hturns
    have ht : turns t = ⟨es ++ last, none, none⟩ := hturns 0
    refine ⟨1, t + 1, ?_⟩
    rw [Function.iterate_one, step, behind]
    simp only [ht, answer, run_append]
    rfl
  | cons key keys ih =>
    intro es K t l hturns
    have ht : turns t = ⟨es, none, some key.2⟩ := hturns 0
    have ht1 : turns (t + 1) = ⟨key.1, none, none⟩ := hturns 1
    have hfirst : step (behind sel turns) text ((K, t), .next l) =
        ((FluxGuard.run K es, t + 1), .lookup { l with nextKey := key.2, currentKey := key.2 }) := by
      rw [step, behind]
      simp only [ht, answer]
    obtain ⟨l', hsecond, hres⟩ := step_as_lookup text sel (FluxGuard.run K es)
      { l with nextKey := key.2, currentKey := key.2 } rfl ht1
    obtain ⟨n, t', hn⟩ := ih [] (lookup text sel (FluxGuard.run K es, l.res) key).1 (t + 2) l' fun i => by
      rw [Nat.add_assoc, Nat.add_comm 2 i]
      exact hturns (i + 2)
    refine ⟨n + 2, t', ?_⟩
    rw [Function.iterate_add_apply, Function.iterate_succ_apply, Function.iterate_one, hfirst, hsecond, hn, hres]
    rfl

/-! ## The same dump -/

variable {T : Type}

/-- What a dump of the brain comes to, by the outcome of its call. -/
theorem dumpMap_eq (env : ℕ → Interrupt) (text : α → Text) (keysOf : Interrupt → List (List Event × α))
    (sel : Kernel → Dict α UInt32) (w : World T) :
    dumpMap env text keysOf sel w =
      let kernel := FluxGuard.run w.kernel (env w.turn).events
      let dump := (keysOf (env w.turn)).foldl (lookup text sel) (kernel, Dict.empty)
      match (env w.turn).outcome .dump with
      | .ok => ({ w with kernel := dump.1, turn := w.turn + 1 }, some (some dump.2))
      | .error => ({ w with kernel := kernel, turn := w.turn + 1 }, some none)
      | .kill => ({ w with kernel := kernel, turn := w.turn + 1 }, none) := by
  have hcall : syscall env .dump w = match (env w.turn).outcome .dump with
      | .ok => ({ w with kernel := FluxGuard.run w.kernel (env w.turn).events, turn := w.turn + 1 }, some true)
      | .error => ({ w with kernel := FluxGuard.run w.kernel (env w.turn).events, turn := w.turn + 1 }, some false)
      | .kill => ({ w with kernel := FluxGuard.run w.kernel (env w.turn).events, turn := w.turn + 1 }, none) := rfl
  unfold dumpMap
  rw [Proc.bind_some (x := Proc.get) rfl]
  cases ho : (env w.turn).outcome .dump with
  | ok =>
    rw [ho] at hcall
    rw [Proc.bind_some hcall]
    rfl
  | error =>
    rw [ho] at hcall
    rw [Proc.bind_some hcall]
    rfl
  | kill =>
    rw [ho] at hcall
    rw [Proc.bind_none hcall]

/-- The dump of the brain on some interrupt comes to `r` and leaves a kernel that the host makes `K` of. -/
def Comes (text : α → Text) (keysOf : Interrupt → List (List Event × α)) (sel : Kernel → Dict α UInt32) (w : World T)
    (K : Kernel) (r : Option (Option (Dict Text UInt32))) : Prop :=
  ∃ env es, (dumpMap env text keysOf sel w).2 = r ∧ FluxGuard.run (dumpMap env text keysOf sel w).1.kernel es = K

variable {keysOf : Interrupt → List (List Event × α)} {w : World T} {K : Kernel}

theorem Reached.since {k : Kernel} {res : Dict Text UInt32} (h : Reached text sel k res K) :
    ∃ es, FluxGuard.run k es = K := by
  obtain ⟨keys, es, -, rfl⟩ := h
  obtain ⟨es', hes'⟩ := history_lookups text sel keys k Dict.empty
  refine ⟨es' ++ es, ?_⟩
  rw [run_append, hes']

/-- A dump that is killed. -/
theorem comes_none (es es' : List Event) :
    Comes text keysOf sel w (FluxGuard.run (FluxGuard.run w.kernel es) es') none := by
  refine ⟨fun _ => ⟨es, fun _ => .kill, [], [], .old⟩, es', ?_, ?_⟩
  · rw [dumpMap_eq]
  · rw [dumpMap_eq]

theorem comes_of_stands
    (hkeys : ∀ es outcome keys, ∃ i : Interrupt, i.events = es ∧ i.outcome = outcome ∧ keysOf i = keys)
    {t : ℕ} {s : State α} (h : Stands text sel turns w.kernel ((K, t), s)) : Comes text keysOf sel w K s.outcome := by
  cases s with
  | first l =>
    obtain ⟨rfl, -, -⟩ := h
    exact comes_none [] []
  | lookup l =>
    obtain ⟨es, rfl⟩ := Reached.since h
    exact comes_none _ _
  | next l =>
    obtain ⟨es, rfl⟩ := Reached.since h
    exact comes_none _ _
  | returned res =>
    obtain ⟨keys, es, hres, hK⟩ := h
    obtain ⟨i, hi, ho, hk⟩ := hkeys (turns 0).events (fun _ => .ok) keys
    refine ⟨fun _ => i, es, ?_, ?_⟩
    · rw [dumpMap_eq]
      simp only [hi, ho, hk, hres]
      rfl
    · rw [dumpMap_eq]
      simp only [hi, ho, hk, hK]
  | raised errno =>
    obtain ⟨i, hi, ho, -⟩ := hkeys (turns 0).events (fun _ => .error) []
    refine ⟨fun _ => i, [], ?_, ?_⟩
    · rw [dumpMap_eq]
      simp only [ho]
      rfl
    · rw [dumpMap_eq]
      simp only [hi, ho]
      exact h.symm

/-- Some calls of the machine lead to where the brain's dump is. -/
theorem run_of_comes (zero : α) {r : Option (Option (Dict Text UInt32))} (h : Comes text keysOf sel w K r) :
    ∃ turns n, (run (behind sel turns) text zero (w.kernel, 0) n).1.1 = K ∧
      (run (behind sel turns) text zero (w.kernel, 0) n).2.outcome = r := by
  obtain ⟨env, last, hr, hK⟩ := h
  rw [dumpMap_eq] at hr hK
  cases ho : (env w.turn).outcome .dump with
  | kill =>
    simp only [ho] at hr hK
    refine ⟨fun _ => ⟨(env w.turn).events ++ last, none, some zero⟩, 1, ?_, ?_⟩
    · rw [← hK, ← run_append]
      rfl
    · rw [← hr]
      rfl
  | error =>
    simp only [ho] at hr hK
    -- any errno but ENOENT
    refine ⟨fun _ => ⟨(env w.turn).events ++ last, some 1, none⟩, 1, ?_, ?_⟩
    · rw [← hK, ← run_append]
      rfl
    · rw [← hr]
      rfl
  | ok =>
    simp only [ho] at hr hK
    cases hkeys : keysOf (env w.turn) with
    | nil =>
      rw [hkeys] at hr hK
      refine ⟨fun _ => ⟨(env w.turn).events ++ last, none, none⟩, 1, ?_, ?_⟩
      · rw [← hK]
        exact run_append _ _ _
      · rw [← hr]
        rfl
    | cons key keys =>
      rw [hkeys] at hr hK
      set es := (env w.turn).events
      set turns := turnsOf last es (key :: keys)
      -- the first call hands out the first key, and the loop takes it from there
      have hfirst : step (behind sel turns) text ((w.kernel, 0), .first ⟨zero, zero, zero, 0, Dict.empty⟩) =
          ((FluxGuard.run w.kernel es, 1), .lookup ⟨key.2, key.2, zero, 0, Dict.empty⟩) := rfl
      obtain ⟨l, hsecond, hres⟩ := step_as_lookup text sel (FluxGuard.run w.kernel es)
        ⟨key.2, key.2, zero, 0, Dict.empty⟩ rfl (show turns 1 = ⟨key.1, none, none⟩ from rfl)
      obtain ⟨n, t, hn⟩ :=
        exists_run text sel turns last keys [] (lookup text sel (FluxGuard.run w.kernel es, Dict.empty) key).1 2 l
        fun i => by rw [Nat.add_comm]; rfl
      have hrun : run (behind sel turns) text zero (w.kernel, 0) (n + 2) =
          ((FluxGuard.run ((key :: keys).foldl (lookup text sel) (FluxGuard.run w.kernel es, Dict.empty)).1 last, t),
            .returned ((key :: keys).foldl (lookup text sel) (FluxGuard.run w.kernel es, Dict.empty)).2) := by
        rw [run, Function.iterate_add_apply, Function.iterate_succ_apply, Function.iterate_one, hfirst,
          hsecond, hn, hres]
        rfl
      refine ⟨turns, n + 2, ?_, ?_⟩
      · rw [hrun]
        exact hK
      · rw [hrun]
        exact hr

theorem calls_iff (zero : α)
    (hkeys : ∀ es outcome keys, ∃ i : Interrupt, i.events = es ∧ i.outcome = outcome ∧ keysOf i = keys)
    (r : Option (Option (Dict Text UInt32))) :
    (∃ turns n, (run (behind sel turns) text zero (w.kernel, 0) n).1.1 = K ∧
      (run (behind sel turns) text zero (w.kernel, 0) n).2.outcome = r) ↔ Comes text keysOf sel w K r := by
  constructor
  · rintro ⟨turns, n, rfl, rfl⟩
    exact comes_of_stands hkeys (stands_run text sel turns zero w.kernel n)
  · intro h
    exact run_of_comes zero h

end Behind

/-- **The brain's dump is what the system calls make of it.** Let a dump of the machine begin with the kernel of a
world, and let the rest of the host act before every call, any call fail, and every `GET_NEXT_KEY` find any key.
Where the machine may stand, ended or not, is where the brain's dump may be, returned, raised or killed: with the
same result, and with the same kernel after some more events of the host. -/
theorem dump_calls {T : Type} (sel : Kernel → Dict Ip4 UInt32) (selV6 : Kernel → Dict Ip6 UInt32)
    (w : World T) (K : Kernel)
    (r : Option (Option (Dict Text UInt32))) :
    ((∃ turns n, (dumpMapU32 (behind sel turns) (w.kernel, 0) n).1.1 = K ∧
        (dumpMapU32 (behind sel turns) (w.kernel, 0) n).2.outcome = r) ↔
      ∃ env es, (FluxGuard.dumpMapU32 env sel w).2 = r ∧
        FluxGuard.run (FluxGuard.dumpMapU32 env sel w).1.kernel es = K) ∧
    ((∃ turns n, (dumpMapU32V6 (behind selV6 turns) (w.kernel, 0) n).1.1 = K ∧
        (dumpMapU32V6 (behind selV6 turns) (w.kernel, 0) n).2.outcome = r) ↔
      ∃ env es, (FluxGuard.dumpMapU32V6 env selV6 w).2 = r ∧
        FluxGuard.run (FluxGuard.dumpMapU32V6 env selV6 w).1.kernel es = K) := by
  constructor
  · refine calls_iff 0 ?_ r
    intro es outcome keys
    exact ⟨⟨es, outcome, keys, [], .old⟩, rfl, rfl, rfl⟩
  · refine calls_iff (Vector.replicate 16 0) ?_ r
    intro es outcome keys
    exact ⟨⟨es, outcome, [], keys, .old⟩, rfl, rfl, rfl⟩

end FluxGuard.Dump
