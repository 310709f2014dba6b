import FluxGuard.Proof.Trace

/-!
# What the brain may name

The brain tracks, saves, logs and exports the addresses that it reads from the blacklists and from
its checkpoint file. So whatever holds of every source that the kernel lists holds of every source
that the brain names.

* `Causes`: an invariant of the kernel over the system calls, and what it makes known of the listed
  sources.
* `Grounded`: this is known of every address that the world names. Every system call keeps it, in
  whatever order the rest of the host acts, and so do a start and a tick, also when they are killed.
* `System.grounded_step`: so does every act within a boot.
-/

namespace FluxGuard

/-- `I t k` holds of the kernel before the `t`-th system call, and `C t k s` is known there of the
sources that were listed. -/
structure Causes (env : ℕ → Interrupt) (I : ℕ → Kernel → Prop) (C : ℕ → Kernel → Source → Prop) : Prop where
  /-- The rest of the host acts around a call. -/
  host : ∀ {t k es}, I t k → es.Sublist (env t).all → I (t + 1) (run k es)
  grow : ∀ {t k es s}, I t k → C t k s → es.Sublist (env t).all → C (t + 1) (run k es) s
  /-- A source that is listed on the way. -/
  shown : ∀ {t k es es' s}, I t k → (es ++ es').Sublist (env t).all → ((run k es).view s).listed = true →
    C (t + 1) (run k (es ++ es')) s
  /-- The brain takes a source off, or puts back one of which it is known. -/
  unlist : ∀ {t k} s, I t k → I t (k.step (unblacklist s))
  unlist_grow : ∀ {t k s} s', C t k s → C t (k.step (unblacklist s')) s
  list : ∀ {t k s}, I t k → C t k s → I t (k.step (blacklist s))
  list_grow : ∀ {t k s} s', C t k s → C t (k.step (blacklist s')) s

/-- The text names a source of which it is known. -/
def Named (C : Source → Prop) (ip : Text) : Prop := ∃ s, ip = s.text ∧ C s

/-- A source named for one reason is named for any weaker one. -/
theorem Named.imp {C C' : Source → Prop} {ip : Text} (h : Named C ip) (hC : ∀ s, C s → C' s) : Named C' ip := by
  obtain ⟨s, hs, hcause⟩ := h
  exact ⟨s, hs, hC s hcause⟩

variable {T : Type} {env : ℕ → Interrupt} {I : ℕ → Kernel → Prop} {C : ℕ → Kernel → Source → Prop}

/-- What is known of the addresses that a world names: those of the checkpoint file, those that the
log says were blocked, the exported ones, and those of `X`. -/
structure Grounded (I : ℕ → Kernel → Prop) (C : ℕ → Kernel → Source → Prop) (X : Set Text) (w : World T) : Prop where
  inv : I w.turn w.kernel
  texts : ∀ ip ∈ X, Named (C w.turn w.kernel) ip
  file : ∀ ip ∈ w.file.getD Dict.empty, Named (C w.turn w.kernel) ip
  log : ∀ ip c, LogLine.autoBlock ip c ∈ w.log → Named (C w.turn w.kernel) ip
  exported : ∀ ip ∈ w.metrics.blockedIpsSet, Named (C w.turn w.kernel) ip

variable {args : Args T} {fds : Fds} {X Y : Set Text} {w : World T}

/-- Fewer addresses are grounded too. -/
theorem Grounded.mono (h : Grounded I C X w) (hY : Y ⊆ X) : Grounded I C Y w where
  inv := h.inv
  texts ip hip := h.texts ip (hY hip)
  file := h.file
  log := h.log
  exported := h.exported

/-- Addresses that are named may be added. -/
theorem Grounded.union (h : Grounded I C X w) (hY : ∀ ip ∈ Y, Named (C w.turn w.kernel) ip) :
    Grounded I C (X ∪ Y) w where
  inv := h.inv
  texts ip hip := hip.elim (h.texts ip) (hY ip)
  file := h.file
  log := h.log
  exported := h.exported

/-- Another kernel, where at least as much is known. -/
theorem Grounded.imp (h : Grounded I C X w) {I' : ℕ → Kernel → Prop} {C' : ℕ → Kernel → Source → Prop}
    {k : Kernel} {t : ℕ}
    (hk : I' t k) (hgrow : ∀ s, C w.turn w.kernel s → C' t k s) :
    Grounded I' C' X { w with kernel := k, turn := t } where
  inv := hk
  texts ip hip := (h.texts ip hip).imp hgrow
  file ip hip := (h.file ip hip).imp hgrow
  log ip c hip := (h.log ip c hip).imp hgrow
  exported ip hip := (h.exported ip hip).imp hgrow

/-- The rest of the host acts around a call. -/
theorem Grounded.host (hC : Causes env I C) (h : Grounded I C X w) {es : List Event}
    (hes : es.Sublist (env w.turn).all) :
    Grounded I C X { w with kernel := run w.kernel es, turn := w.turn + 1 } :=
  h.imp (hC.host h.inv hes) fun _ hs => hC.grow h.inv hs hes

open Proc

/-! ## System calls -/

/-- A call keeps what was grounded so. -/
theorem syscall_grounded (hC : Causes env I C) (c : Call) :
    Triple (Grounded (T := T) I C X) (syscall env c) (fun _ => Grounded I C X) (Grounded I C X) := by
  intro w hw
  have hnext := hw.host hC (List.sublist_append_left (env w.turn).events _)
  unfold syscall
  cases (env w.turn).outcome c with
  | ok => exact hnext
  | error => exact hnext
  | kill => exact hnext

/-- What a dump returns was found by one of its lookups. -/
theorem mem_lookups {α : Type} [DecidableEq α] {text : α → Text} {sel : Kernel → Dict α UInt32}
    {keys : List (List Event × α)}
    {k : Kernel} {ip : Text} (h : ip ∈ (keys.foldl (lookup text sel) (k, Dict.empty)).2) :
    ∃ pre q post v, keys = pre ++ q :: post ∧ ip = text q.2 ∧
      (sel (run k (pre.flatMap Prod.fst ++ q.1))).get? q.2 = some v := by
  induction keys using List.reverseRecOn with
  | nil => cases h
  | append_singleton keys q ih =>
    rw [List.foldl_append, List.foldl_cons, List.foldl_nil, lookup, lookups_kernel] at h
    simp only at h
    have hearlier : ip ∈ (keys.foldl (lookup text sel) (k, Dict.empty)).2 → ∃ pre q' post v,
        keys ++ [q] = pre ++ q' :: post ∧ ip = text q'.2 ∧
          (sel (run k (pre.flatMap Prod.fst ++ q'.1))).get? q'.2 = some v := by
      intro h
      obtain ⟨pre, q', post, v, hkeys, hip, hget⟩ := ih h
      exact ⟨pre, q', post ++ [q], v, by rw [hkeys]; simp, hip, hget⟩
    split at h
    · rename_i v hget
      rcases Dict.mem_set.1 h with rfl | h
      · exact ⟨keys, q, [], v, rfl, rfl, by rw [run_append]; exact hget⟩
      · exact hearlier h
    · exact hearlier h

/-- A dump, of a blacklist if `b`. -/
theorem dumpMap_grounded (hC : Causes env I C) {α : Type} [DecidableEq α] (src : α → Source)
    {keys : Interrupt → List (List Event × α)}
    (hkeys : ∀ i, ((keys i).flatMap Prod.fst).Sublist (i.keys.flatMap Prod.fst ++ i.keysV6.flatMap Prod.fst))
    (sel : Kernel → Dict α UInt32) {b : Bool} (hlists : b = true → Lists sel src) :
    Triple (Grounded (T := T) I C X) (dumpMap env (fun a => (src a).text) keys sel)
      (fun r w => Grounded I C X w ∧ (b = true → ∀ res, r = some res → Grounded I C (X ∪ { ip | ip ∈ res }) w))
      (Grounded I C X) := by
  intro w hw
  have hcall := syscall_grounded hC .dump w hw
  unfold dumpMap
  rw [bind_some (x := Proc.get) rfl]
  cases hs : syscall env .dump w with
  | mk w' r =>
    rw [hs] at hcall
    cases r with
    | none =>
      rw [bind_none hs]
      exact hcall
    | some ok =>
      rw [bind_some hs]
      cases ok with
      | false =>
        refine ⟨hcall, fun _ res h => ?_⟩
        cases h
      | true =>
        have hw' : w' = { w with kernel := run w.kernel (env w.turn).events, turn := w.turn + 1 } := by
          unfold syscall at hs
          cases ho : (env w.turn).outcome .dump <;> simp [ho] at hs
          exact hs.symm
        subst hw'
        have hsub : ((env w.turn).events ++ (keys (env w.turn)).flatMap Prod.fst).Sublist (env w.turn).all :=
          (List.Sublist.refl _).append (hkeys _)
        have hkernel : ((keys (env w.turn)).foldl (lookup (fun a => (src a).text) sel)
            (run w.kernel (env w.turn).events, Dict.empty)).1 =
            run w.kernel ((env w.turn).events ++ (keys (env w.turn)).flatMap Prod.fst) := by
          rw [lookups_kernel, run_append]
        have hg := hw.host hC hsub
        rw [← hkernel] at hg
        refine ⟨hg, fun hb res h => ?_⟩
        cases h
        apply hg.union
        intro ip hip
        obtain ⟨pre, q, post, v, hsplit, rfl, hget⟩ := mem_lookups hip
        refine ⟨src q.2, rfl, ?_⟩
        -- the key was listed when its lookup found it
        have hlisted := hlists hb _ _ _ hget
        rw [← run_append] at hlisted
        have hall : (env w.turn).events ++ (keys (env w.turn)).flatMap Prod.fst =
            (env w.turn).events ++ (pre.flatMap Prod.fst ++ q.1) ++ post.flatMap Prod.fst := by
          rw [hsplit]
          simp
        show C (w.turn + 1) (((keys (env w.turn)).foldl (lookup (fun a => (src a).text) sel)
            (run w.kernel (env w.turn).events, Dict.empty)).1) (src q.2)
        rw [hkernel, hall]
        exact hC.shown hw.inv (hall ▸ hsub) hlisted

/-- A dump of a blacklist names only what was listed. -/
theorem dumpMapU32_grounded (hC : Causes env I C) (sel : Kernel → Dict Ip4 UInt32) {b : Bool}
    (hlists : b = true → Lists sel .v4) :
    Triple (Grounded (T := T) I C X) (dumpMapU32 env sel)
      (fun r w => Grounded I C X w ∧ (b = true → ∀ res, r = some res → Grounded I C (X ∪ { ip | ip ∈ res }) w))
      (Grounded I C X) :=
  dumpMap_grounded hC Source.v4 (fun _ => List.sublist_append_left _ _) sel hlists

/-- The same for IPv6. -/
theorem dumpMapU32V6_grounded (hC : Causes env I C) (sel : Kernel → Dict Ip6 UInt32) {b : Bool}
    (hlists : b = true → Lists sel .v6) :
    Triple (Grounded (T := T) I C X) (dumpMapU32V6 env sel)
      (fun r w => Grounded I C X w ∧ (b = true → ∀ res, r = some res → Grounded I C (X ∪ { ip | ip ∈ res }) w))
      (Grounded I C X) :=
  dumpMap_grounded hC Source.v6 (fun _ => List.sublist_append_right _ _) sel hlists

/-- To read the aggregate bucket names nothing. -/
theorem getGlobalTokens_grounded (hC : Causes env I C) :
    Triple (Grounded (T := T) I C X) (getGlobalTokens env) (fun _ => Grounded I C X) (Grounded I C X) := by
  refine (syscall_grounded hC .tokens).bind fun ok => ?_
  cases ok with
  | false => exact Triple.pure fun _ hw => hw
  | true => exact fun w hw => hw

/-- Putting back a source of which it is known. -/
theorem Grounded.list (hC : Causes env I C) (h : Grounded I C X w) {s : Source} (hs : C w.turn w.kernel s) :
    Grounded I C X { w with kernel := w.kernel.step (blacklist s) } :=
  h.imp (hC.list h.inv hs) fun _ => hC.list_grow s

/-- An address that is grounded may be listed again. -/
theorem reapply_grounded (hC : Causes env I C) {ip : Text} (hip : ip ∈ X) :
    Triple (Grounded (T := T) I C X) (reapply env fds ip) (fun _ => Grounded I C X) (Grounded I C X) := by
  intro w hw
  obtain ⟨s, rfl, -⟩ := hw.texts ip hip
  -- the text is parsed to the source that it names
  have hset : ∀ s, s.text ∈ X → Triple (Grounded (T := T) I C X)
      (Proc.modify fun w => { w with kernel := w.kernel.step (blacklist s) }) (fun _ => Grounded I C X)
        (Grounded I C X) := by
    intro s hs
    refine Triple.modify fun w hw => hw.list hC ?_
    obtain ⟨s', htext, hsus⟩ := hw.texts _ hs
    rw [Source.text_injective htext]
    exact hsus
  unfold reapply
  cases s with
  | v4 a =>
    rw [if_neg (show ':' ∉ (Source.v4 a).text from colon_not_mem_keyToIp a), setMapU32,
      show ipToKey (Source.v4 a).text = some a from ipToKey_keyToIp a]
    refine (syscall_grounded hC .set).bind (fun ok => ?_) w hw
    cases ok with
    | false => exact Triple.pure fun _ hw => hw
    | true => exact hset _ hip
  | v6 a =>
    rw [if_pos (show ':' ∈ (Source.v6 a).text from colon_mem_keyToIpV6 a)]
    refine Triple.ite (fun _ => ?_) (fun _ => Triple.pure fun _ hw => hw) w hw
    rw [setMapU32V6, show ipToKeyV6 (Source.v6 a).text = some a from ipToKeyV6_keyToIpV6 a]
    refine (syscall_grounded hC .set).bind fun ok => ?_
    cases ok with
    | false => exact Triple.pure fun _ hw => hw
    | true => exact hset _ hip

/-- A delete names nothing. -/
theorem deleteElem_grounded (hC : Causes env I C) (s : Source) :
    Triple (Grounded (T := T) I C X) (deleteElem env s) (fun _ => Grounded I C X) (Grounded I C X) := by
  refine (syscall_grounded hC .delete).bind fun ok => ?_
  cases ok with
  | false => exact fun w hw => ⟨hw.inv, hw.texts, hw.file, hw.log, hw.exported⟩
  | true =>
    intro w hw
    have hstep := hw.imp (hC.unlist s hw.inv) fun _ => hC.unlist_grow s
    exact ⟨hstep.inv, hstep.texts, hstep.file, hstep.log, hstep.exported⟩

/-- A save of addresses of `X`. -/
theorem saveCheckpoint_grounded (hC : Causes env I C) {B : Dict Text T} (hB : ∀ ip ∈ B, ip ∈ X) :
    Triple (Grounded I C X) (saveCheckpoint env B) (fun _ => Grounded I C X) (Grounded I C X) := by
  have hnew : ∀ w : World T, Grounded I C X w → Grounded I C X { w with file := some B } := fun w hw =>
    ⟨hw.inv, hw.texts, fun ip hip => hw.texts ip (hB ip hip), hw.log, hw.exported⟩
  have hremains : ∀ (r : Remains) (w : World T), Grounded I C X w →
      Grounded I C X { w with file := r.file w.file (some B) } := by
    intro r w hw
    cases r with
    | old => exact hw
    | torn => exact ⟨hw.inv, hw.texts, fun _ hip => (nomatch hip), hw.log, hw.exported⟩
    | new => exact hnew w hw
  refine Triple.bind (Triple.modify fun w hw => hremains _ w hw) fun _ => (syscall_grounded hC .save).bind fun ok => ?_
  cases ok with
  | false => exact Triple.pure fun _ hw => hw
  | true => exact Triple.modify hnew

/-- What the checkpoint gives is grounded by it. -/
theorem loadCheckpoint_grounded (hC : Causes env I C) :
    Triple (Grounded (T := T) I C X) (loadCheckpoint env) (fun B => Grounded I C (X ∪ { ip | ip ∈ B }))
      (Grounded I C X) := by
  refine (syscall_grounded hC .load).bind fun ok => ?_
  cases ok with
  | false =>
    refine Triple.pure fun w hw => hw.union ?_
    intro ip hip
    cases hip
  | true => exact fun w hw => hw.union hw.file

/-- A metric that does not touch the page's addresses names nothing. -/
theorem metric_grounded {f : MetricsState → MetricsState} (hf : ∀ m, (f m).blockedIpsSet = m.blockedIpsSet) :
    Triple (Grounded (T := T) I C X) (metric f) (fun _ => Grounded I C X) (Grounded I C X) := by
  refine Triple.modify fun w hw => ⟨hw.inv, hw.texts, hw.file, hw.log, fun ip hip => ?_⟩
  apply hw.exported
  rw [← hf w.metrics]
  exact hip

/-- The export of addresses of `X`. -/
theorem updateBlockedSet_grounded {ips : List Text} (hips : ∀ ip ∈ ips, ip ∈ X) :
    Triple (Grounded (T := T) I C X) (metric fun m => m.updateBlockedSet ips) (fun _ => Grounded I C X)
      (Grounded I C X) :=
  Triple.modify fun _ hw => ⟨hw.inv, hw.texts, hw.file, hw.log, fun ip hip => hw.texts ip (hips ip hip)⟩

/-- A line may name only what is grounded. -/
theorem logLine_grounded {line : LogLine} (hline : ∀ ip c, line = .autoBlock ip c → ip ∈ X) :
    Triple (Grounded (T := T) I C X) (logLine line) (fun _ => Grounded I C X) (Grounded I C X) := by
  refine Triple.modify fun w hw => ⟨hw.inv, hw.texts, hw.file, fun ip c hip => ?_, hw.exported⟩
  rcases List.mem_append.1 hip with hip | hip
  · exact hw.log ip c hip
  · exact hw.texts ip (hline ip c (List.mem_singleton.1 hip).symm)

/-! ## A start and a tick -/

variable (fds) in
/-- What the brain starts with is grounded. -/
theorem start_grounded [Zero T] (hC : Causes env I C) :
    Triple (Grounded (T := T) I C X) (start env fds) (fun b => Grounded I C { ip | ip ∈ b.blockedUntil })
      (Grounded I C ∅) := by
  refine Triple.bind (Q := fun _ => Grounded I C X) ?_ fun _ => ?_
  · refine Triple.modify fun w hw => ⟨hw.inv, hw.texts, hw.file, hw.log, fun ip hip => ?_⟩
    cases hip
  refine ((loadCheckpoint_grounded hC).weaken (fun _ h => h) (fun _ _ h => h)
    fun _ h => h.mono (Set.empty_subset X)).bind fun B => ?_
  refine Triple.bind (Q := fun _ => Grounded I C (X ∪ { ip | ip ∈ B })) ?_ fun _ =>
    Triple.pure fun w hw => hw.mono Set.subset_union_right
  refine (Triple.foldlM (I := fun _ _ => Grounded I C (X ∪ { ip | ip ∈ B })) (C := Grounded I C (X ∪ { ip | ip ∈ B }))
    (fun done ip rest _ hl => ?_) ()).weaken (fun _ h => h) (fun _ _ h => h) fun _ h => h.mono (Set.empty_subset _)
  apply reapply_grounded hC
  right
  show ip ∈ B.keys
  rw [hl]
  simp

/-- The refresh tracks nothing new. -/
theorem refreshAllowlist_grounded [Sub T] [LE T] [DecidableLE T] (hC : Causes env I C) (now : T) (b : Brain T) :
    Triple (Grounded I C X) (refreshAllowlist env args fds now b)
      (fun b' w => Grounded I C X w ∧ b'.blockedUntil = b.blockedUntil) (Grounded I C X) := by
  unfold refreshAllowlist
  refine Triple.ite (fun _ => ?_) fun _ => Triple.pure fun _ hw => ⟨hw, rfl⟩
  refine Triple.bind (Q := fun _ => Grounded I C X) ?_ fun r => ?_
  · exact (dumpMapU32_grounded (b := false) hC _ (fun h => by cases h)).post fun _ _ h => h.1
  cases r with
  | none => exact Triple.pure fun _ hw => ⟨hw, rfl⟩
  | some cache =>
    refine Triple.ite (fun _ => ?_) fun _ => Triple.pure fun _ hw => ⟨hw, rfl⟩
    refine Triple.bind (Q := fun _ => Grounded I C X) ?_ fun r => ?_
    · exact (dumpMapU32V6_grounded (b := false) hC _ (fun h => by cases h)).post fun _ _ h => h.1
    cases r with
    | none => exact Triple.pure fun _ hw => ⟨hw, rfl⟩
    | some cacheV6 => exact Triple.pure fun _ hw => ⟨hw, rfl⟩

/-- The addresses that the blacklist dumps of a tick show. -/
def Sight.ips (s : Sight) : Set Text := { ip | ip ∈ s.blacklist ∨ ip ∈ s.blacklistV6 }

/-- A dump of an opened map names only what was listed. -/
theorem dumpOpened_grounded (hC : Causes env I C) (fd : Option ℕ) (sel : Kernel → Dict Ip6 UInt32) {b : Bool}
    (hlists : b = true → Lists sel .v6) :
    Triple (Grounded (T := T) I C X) (dumpOpened env fd sel)
      (fun r w => Grounded I C X w ∧ (b = true → ∀ res, r = some res → Grounded I C (X ∪ { ip | ip ∈ res }) w))
        (Grounded I C X) := by
  refine Triple.ite (fun _ => dumpMapU32V6_grounded hC sel hlists) fun _ => Triple.pure fun w hw =>
    ⟨hw, fun _ res h => ?_⟩
  cases h
  apply hw.union
  intro ip hip
  cases hip

/-- The reading half of a tick names only what was listed. -/
theorem readMaps_grounded (hC : Causes env I C) :
    Triple (Grounded (T := T) I C X) (readMaps env fds) (fun s => Grounded I C (X ∪ s.ips)) (Grounded I C X) := by
  unfold readMaps
  have hempty : ∀ w : World T, Grounded I C X w → Grounded I C (X ∪ Sight.empty.ips) w := by
    intro w hw
    apply hw.union
    rintro ip (hip | hip) <;> cases hip
  refine (dumpMapU32_grounded (b := true) hC _ fun _ => lists_v4).bind fun r => ?_
  cases r with
  | none => exact Triple.pure fun w hw => hempty w hw.1
  | some blacklist =>
    -- from here on the addresses of the IPv4 dump are among the texts
    refine Triple.pre (P := Grounded I C (X ∪ { ip | ip ∈ blacklist })) ?_ fun w hw => hw.2 rfl blacklist rfl
    have hback : ∀ w : World T, Grounded I C (X ∪ { ip | ip ∈ blacklist }) w → Grounded I C X w :=
      fun w hw => hw.mono Set.subset_union_left
    have hfour : ∀ (w : World T) counts, Grounded I C (X ∪ { ip | ip ∈ blacklist }) w →
        Grounded I C (X ∪ Sight.ips ⟨blacklist, counts, Dict.empty, Dict.empty, 0⟩) w := by
      intro w counts hw
      refine hw.mono ?_
      rintro ip (hip | hip | hip)
      · exact Or.inl hip
      · exact Or.inr hip
      · cases hip
    refine Triple.weaken (P := Grounded I C (X ∪ { ip | ip ∈ blacklist }))
      (C := Grounded I C (X ∪ { ip | ip ∈ blacklist })) ?_ (fun _ h => h) (fun _ _ h => h) hback
    refine Triple.bind (Q := fun _ => Grounded I C (X ∪ { ip | ip ∈ blacklist })) ?_ fun r => ?_
    · exact (dumpMapU32_grounded (b := false) hC _ fun h => by cases h).post fun _ _ h => h.1
    cases r with
    | none => exact Triple.pure fun w hw => hfour w _ hw
    | some counts =>
      refine (dumpOpened_grounded (b := true) hC _ _ fun _ => lists_v6).bind fun r => ?_
      cases r with
      | none => exact Triple.pure fun w hw => hfour w _ hw.1
      | some blacklistV6 =>
        refine Triple.pre (P := Grounded I C (X ∪ { ip | ip ∈ blacklist } ∪ { ip | ip ∈ blacklistV6 })) ?_
          fun w hw => hw.2 rfl blacklistV6 rfl
        have hsix : ∀ (w : World T) countsV6 (tokens : ℤ),
            Grounded I C (X ∪ { ip | ip ∈ blacklist } ∪ { ip | ip ∈ blacklistV6 }) w →
            Grounded I C (X ∪ Sight.ips ⟨blacklist, counts, blacklistV6, countsV6, tokens⟩) w := by
          intro w countsV6 tokens hw
          refine hw.mono ?_
          rintro ip (hip | hip | hip)
          · exact Or.inl (Or.inl hip)
          · exact Or.inl (Or.inr hip)
          · exact Or.inr hip
        refine Triple.weaken (P := Grounded I C (X ∪ { ip | ip ∈ blacklist } ∪ { ip | ip ∈ blacklistV6 }))
          (C := Grounded I C (X ∪ { ip | ip ∈ blacklist } ∪ { ip | ip ∈ blacklistV6 })) ?_ (fun _ h => h)
            (fun _ _ h => h)
          fun w hw => hw.mono Set.subset_union_left
        refine Triple.bind (Q := fun _ => Grounded I C (X ∪ { ip | ip ∈ blacklist } ∪ { ip | ip ∈ blacklistV6 }))
          ?_ fun r => ?_
        · exact (dumpOpened_grounded (b := false) hC _ _ fun h => by cases h).post fun _ _ h => h.1
        cases r with
        | none => exact Triple.pure fun w hw => hsix w _ _ hw
        | some countsV6 =>
          exact (getGlobalTokens_grounded hC).bind fun tokens => Triple.pure fun w hw => hsix w _ _ hw

/-- A new block is one of the dump. -/
theorem detect_grounded [Add T] (hC : Causes env I C) (now : T) {dump : Dict Text UInt32} (hdump : ∀ ip ∈ dump, ip ∈ X)
    (cache : Dict Text UInt32) {B : Dict Text T} (hB : ∀ ip ∈ B, ip ∈ X) :
    Triple (Grounded I C X) (detect env args now dump cache B) (fun B' w => Grounded I C X w ∧ ∀ ip ∈ B', ip ∈ X)
      (Grounded I C X) := by
  refine (Triple.foldlM (I := fun _ B w => Grounded I C X w ∧ ∀ ip ∈ B, ip ∈ X) (fun done ip rest B hl => ?_) B).pre
    fun w hw => ⟨hw, hB⟩
  have hip : ip ∈ X := by
    apply hdump
    show ip ∈ dump.keys
    rw [hl]
    simp
  refine Triple.pre (P := fun w => (∀ ip ∈ B, ip ∈ X) ∧ Grounded I C X w) (Triple.and_pre fun hB => ?_)
    fun w hw => ⟨hw.2, hw.1⟩
  unfold detectOne
  refine Triple.ite (fun _ => ?_) fun _ => Triple.pure fun w hw => ⟨hw, hB⟩
  have hB' : ∀ a ∈ B.set ip (now + args.cooldownSec), a ∈ X := by
    intro a ha
    rcases Dict.mem_set.1 ha with rfl | ha
    · exact hip
    · exact hB a ha
  refine Triple.bind (metric_grounded fun _ => rfl) fun _ => (saveCheckpoint_grounded hC hB').bind fun _ => ?_
  refine (logLine_grounded fun ip' c h => ?_).bind fun _ => Triple.pure fun w hw => ⟨hw, hB'⟩
  cases h
  exact hip

/-- To unblock names nothing new. -/
theorem unblock_grounded (hC : Causes env I C) (ip : Text) :
    Triple (Grounded (T := T) I C X) (unblock env fds ip) (fun _ => Grounded I C X) (Grounded I C X) := by
  unfold unblock delMapU32 delMapU32V6
  refine Triple.ite (fun _ => Triple.ite (fun _ => ?_) fun _ => Triple.pure fun _ hw => hw) fun _ => ?_
  · cases ipToKeyV6 ip with
    | none => exact Triple.abort fun _ hw => hw
    | some a => exact deleteElem_grounded hC (.v6 a)
  · cases ipToKey ip with
    | none => exact Triple.abort fun _ hw => hw
    | some a => exact deleteElem_grounded hC (.v4 a)

/-- The loop over the tracked blocks keeps to those tracked. -/
theorem expire_grounded [LE T] [DecidableLE T] (hC : Causes env I C) (now : T) {B : Dict Text T}
    (hB : ∀ ip ∈ B, ip ∈ X) :
    Triple (Grounded I C X) (expire env fds now B) (fun B' w => Grounded I C X w ∧ ∀ ip ∈ B', ip ∈ X)
      (Grounded I C X) := by
  unfold expire
  refine Triple.ite (fun _ => Triple.pure fun w hw => ⟨hw, hB⟩) fun _ => ?_
  refine Triple.bind (Q := fun B' w => (∀ ip ∈ B', ip ∈ X) ∧ Grounded I C X w) ?_ fun B' => Triple.and_pre fun hB' =>
    (saveCheckpoint_grounded hC hB').bind fun _ => Triple.pure fun w hw => ⟨hw, hB'⟩
  refine (Triple.foldlM (I := fun _ B w => (∀ ip ∈ B, ip ∈ X) ∧ Grounded I C X w) (fun done ip rest B _ => ?_) B).pre
    fun w hw => ⟨hB, hw⟩
  refine Triple.and_pre fun hB => ?_
  have hB' : ∀ a ∈ B.erase ip, a ∈ X := fun a ha => hB a (Dict.mem_erase.1 ha).2
  refine (unblock_grounded hC ip).bind fun ok => ?_
  cases ok with
  | false => exact Triple.pure fun w hw => ⟨hB', hw⟩
  | true =>
    refine Triple.bind (metric_grounded fun _ => rfl) fun _ => ?_
    refine (logLine_grounded fun _ _ h => ?_).bind fun _ => Triple.pure fun w hw => ⟨hB', hw⟩
    cases h

/-- The page shows what is tracked. -/
theorem publish_grounded (s : Sight) {B : Dict Text T} (hB : ∀ ip ∈ B, ip ∈ X) :
    Triple (Grounded I C X) (publish args s B) (fun _ => Grounded I C X) (Grounded I C X) := by
  unfold publish
  refine Triple.bind (updateBlockedSet_grounded hB) fun _ => Triple.bind (metric_grounded fun _ => rfl) fun _ => ?_
  refine Triple.ite (fun _ => Triple.pure fun _ hw => hw) fun _ => logLine_grounded fun _ _ h => ?_
  cases h

variable (args fds) in
/-- **A tick** names only what it reads, or what was named before. -/
theorem tick_grounded [Add T] [Sub T] [LE T] [DecidableLE T] (hC : Causes env I C) (now : T) (b : Brain T) :
    Triple (Grounded I C { ip | ip ∈ b.blockedUntil }) (tick env args fds now b)
      (fun b' => Grounded I C { ip | ip ∈ b'.blockedUntil }) (Grounded I C ∅) := by
  set X : Set Text := { ip | ip ∈ b.blockedUntil }
  have hnone : ∀ (Y : Set Text) (w : World T), Grounded I C Y w → Grounded I C ∅ w :=
    fun Y w hw => hw.mono (Set.empty_subset Y)
  refine Triple.bind (Q := fun p w => p.1.blockedUntil = b.blockedUntil ∧ Grounded I C (X ∪ p.2.ips) w) ?_ fun p => ?_
  · refine Triple.weaken (C := Grounded I C X) ?_ (fun _ h => h) (fun _ _ h => h) (hnone X)
    refine Triple.bind (Q := fun b' w => b'.blockedUntil = b.blockedUntil ∧ Grounded I C X w) ?_ fun b' =>
      Triple.and_pre fun hb => ?_
    · exact (refreshAllowlist_grounded hC now b).post fun _ _ h => ⟨h.2, h.1⟩
    · exact (readMaps_grounded hC).bind fun s => Triple.pure fun w hw => ⟨hb, hw⟩
  refine Triple.and_pre fun hb => ?_
  set Y : Set Text := X ∪ p.2.ips
  have hB : ∀ ip ∈ p.1.blockedUntil, ip ∈ Y := by
    intro ip hip
    rw [hb] at hip
    exact Or.inl hip
  refine Triple.weaken (C := Grounded I C Y) ?_ (fun _ h => h) (fun _ _ h => h) (hnone Y)
  unfold act
  refine Triple.bind (Q := fun _ => Grounded I C Y) ?_ fun _ => ?_
  · refine Triple.ite (fun _ => ?_) fun _ => Triple.pure fun _ hw => hw
    refine Triple.bind (metric_grounded fun _ => rfl) fun _ => logLine_grounded fun _ _ h => ?_
    cases h
  -- both detections and the expiry stay within what is tracked or shown
  refine Triple.bind (Q := fun B w => (∀ ip ∈ B, ip ∈ Y) ∧ Grounded I C Y w) ?_ fun B => Triple.and_pre fun hB => ?_
  · exact (detect_grounded hC now (fun ip hip => Or.inr (Or.inl hip)) _ hB).post fun _ _ h => ⟨h.2, h.1⟩
  refine Triple.bind (Q := fun B w => (∀ ip ∈ B, ip ∈ Y) ∧ Grounded I C Y w) ?_ fun B => Triple.and_pre fun hB => ?_
  · exact (detect_grounded hC now (fun ip hip => Or.inr (Or.inr hip)) _ hB).post fun _ _ h => ⟨h.2, h.1⟩
  refine Triple.bind (Q := fun B w => (∀ ip ∈ B, ip ∈ Y) ∧ Grounded I C Y w) ?_ fun B => Triple.and_pre fun hB => ?_
  · exact (expire_grounded hC now hB).post fun _ _ h => ⟨h.2, h.1⟩
  exact (publish_grounded p.2 hB).bind fun _ => Triple.pure fun w hw => hw.mono hB

/-! ## One act -/

/-- The addresses that the process tracks. -/
def System.tracked (sys : System T) : Set Text := { ip | ∃ b, sys.proc = some b ∧ ip ∈ b.blockedUntil }

/-- The host names an address: its process tracks it, or it is in the checkpoint file, in the log as
blocked, or exported. -/
def System.Names (sys : System T) (ip : Text) : Prop :=
  ip ∈ sys.tracked ∨ ip ∈ sys.world.file.getD Dict.empty ∨ (∃ c, LogLine.autoBlock ip c ∈ sys.world.log) ∨
    ip ∈ sys.world.metrics.blockedIpsSet

/-- Everything the host names is named for its reason. -/
theorem Grounded.named {sys : System T} (h : Grounded I C sys.tracked sys.world) {ip : Text} (hip : sys.Names ip) :
    Named (C sys.world.turn sys.world.kernel) ip := by
  rcases hip with hip | hip | ⟨c, hip⟩ | hip
  · exact h.texts ip hip
  · exact h.file ip hip
  · exact h.log ip c hip
  · exact h.exported ip hip

variable [Add T] [Sub T] [Zero T] [LE T] [DecidableLE T]

variable (args fds) in
/-- One act within a boot. -/
theorem System.grounded_step {sys : System T} (hC : Causes env I C) (h : Grounded I C sys.tracked sys.world)
    {a : SystemAct T} (ha : ∀ cpus t, a ≠ .reboot cpus t) :
    Grounded I C (sys.step env args fds a).tracked (sys.step env args fds a).world := by
  have htracked : ∀ sys : System T, sys.Holds (Grounded I C ∅) (fun b => Grounded I C { ip | ip ∈ b.blockedUntil }) ↔
      Grounded I C sys.tracked sys.world := by
    rintro ⟨w, proc, t⟩
    unfold System.Holds System.tracked
    cases proc with
    | none =>
      have hempty : { ip | ∃ b : Brain T, none = some b ∧ ip ∈ b.blockedUntil } = (∅ : Set Text) := by
        ext ip
        simp
      rw [hempty]
    | some b => simp
  refine (htracked _).1 (System.holds_step ?_ ?_ ?_ ?_ ((htracked _).2 h))
  · exact start_grounded fds hC
  · exact fun now b => tick_grounded args fds hC now b
  · exact fun b w hw => hw.mono (Set.empty_subset _)
  · exact fun cpus t hreboot => absurd hreboot (ha cpus t)

end FluxGuard
