import FluxGuard.Proof.Blacklist
import FluxGuard.Proof.Lifecycle

/-!
# The exported blocked set

What the metrics call blocked is the brain's own dictionary. A tick in which the allowlist
caches were refreshed and nobody else touched the maps says nothing false about what it
detects itself, but it never looks again at a block that it already tracks.

* `truthful_iff`: in any run, after such a tick every exported address is blocked in the
  kernel, if and only if every tracked block that is not yet due was in force before it.
* `stale_block`: a block that another tool lifts is exported until its deadline.
-/

namespace FluxGuard

variable {T : Type}

/-- The kernel as a tick finds it at its first system call. -/
def found (env : ℕ → Interrupt) (w : World T) : Kernel := run w.kernel (env w.turn).events

/-- **Every exported address is blocked in the kernel**: on the blacklist of its family, and not on
its allowlist. -/
def Truthful (w : World T) : Prop :=
  ∀ ip ∈ w.metrics.blockedIpsSet, ∃ s : Source, s.text = ip ∧ (w.kernel.view s).Blocked

/-- Every tracked block that is not yet due is in force. -/
def Stands [LE T] (k : Kernel) (now : T) (b : Brain T) : Prop :=
  ∀ s D, b.blockedUntil.get? (Source.text s) = some D → ¬ D ≤ now → (k.view s).Blocked

/-- A dump that is handed every key of a map. -/
def Whole {α β : Type} [DecidableEq α] (keys : List (List Event × α)) (entries : Dict α β) : Prop :=
  ∀ a ∈ entries, ∃ q ∈ keys, q.2 = a

/-- A tick from `w` to `w'` that refreshes the allowlist caches, and during which nobody else changes
the maps. -/
structure Clean [Sub T] [LE T] (env : ℕ → Interrupt) (args : Args T) (fds : Fds) (now : T) (b : Brain T)
    (w w' : World T) :
    Prop where
  due : args.allowlistRefreshSec ≤ now - b.allowlistTs
  allowlist : (env w.turn).outcome .dump = .ok ∧ Whole (env w.turn).keys (found env w).v4.allowlistMap.entries
  /-- The second dump of the tick, if blocks of this family are read at all. -/
  allowlistV6 : opened fds.blacklistV6 = true → opened fds.allowlistV6 = true ∧
    (env (w.turn + 1)).outcome .dump = .ok ∧ Whole (env (w.turn + 1)).keysV6 (found env w).v6.allowlistMap.entries
  events : ∀ n, w.turn < n → n < w'.turn → (env n).events = []
  keys : ∀ n, w.turn ≤ n → n < w'.turn → ∀ q ∈ (env n).keys, q.1 = []
  keysV6 : ∀ n, w.turn ≤ n → n < w'.turn → ∀ q ∈ (env n).keysV6, q.1 = []

/-! ## The kernel in a quiet stretch -/

/-- Nobody else changes the maps after call `t` and before call `u`. -/
structure Quiet (env : ℕ → Interrupt) (t u : ℕ) : Prop where
  events : ∀ n, t < n → n < u → (env n).events = []
  keys : ∀ n, t < n → n < u → ∀ q ∈ (env n).keys, q.1 = []
  keysV6 : ∀ n, t < n → n < u → ∀ q ∈ (env n).keysV6, q.1 = []

/-- Up to call `u` this holds of the kernel. -/
def Until (t u : ℕ) (φ : Kernel → Prop) (w : World T) : Prop := t < w.turn ∧ (w.turn ≤ u → φ w.kernel)

/-- A weaker property holds until the same turn. -/
theorem Until.mono {t u : ℕ} {φ ψ : Kernel → Prop} {w : World T} (h : Until t u φ w) (hφ : ∀ k, φ k → ψ k) :
    Until t u ψ w :=
  ⟨h.1, fun hu => hφ _ (h.2 hu)⟩

/-- What a dump with nothing in between returns. -/
theorem lookups_quiet {α : Type} [DecidableEq α] (text : α → Text) (sel : Kernel → Dict α UInt32)
    {keys : List (List Event × α)} (hq : ∀ q ∈ keys, q.1 = []) (k : Kernel) (d : Dict Text UInt32) :
    (keys.foldl (lookup text sel) (k, d)).1 = k ∧
      ∀ ip, ip ∈ (keys.foldl (lookup text sel) (k, d)).2 ↔ ip ∈ d ∨ ∃ q ∈ keys, q.2 ∈ sel k ∧ ip = text q.2 := by
  induction keys generalizing d with
  | nil => exact ⟨rfl, fun ip => by simp⟩
  | cons q keys ih =>
    obtain ⟨d', hone, hd'⟩ : ∃ d', lookup text sel (k, d) q = (k, d') ∧
        ∀ ip, ip ∈ d' ↔ ip ∈ d ∨ q.2 ∈ sel k ∧ ip = text q.2 := by
      unfold lookup
      rw [hq q List.mem_cons_self]
      cases hget : (sel k).get? q.2 with
      | some v =>
        have hin : q.2 ∈ sel k := Dict.mem_iff_isSome.2 (by rw [hget]; rfl)
        refine ⟨d.set (text q.2) v, by dsimp only [run, List.foldl_nil]; rw [hget], fun ip => ?_⟩
        rw [Dict.mem_set]
        constructor
        · rintro (h | h)
          · exact Or.inr ⟨hin, h⟩
          · exact Or.inl h
        · rintro (h | h)
          · exact Or.inr h
          · exact Or.inl h.2
      | none =>
        have hout : q.2 ∉ sel k := Dict.get?_eq_none_iff.1 hget
        refine ⟨d, by dsimp only [run, List.foldl_nil]; rw [hget], fun ip => ?_⟩
        exact ⟨Or.inl, fun h => h.elim id fun h => absurd h.1 hout⟩
    obtain ⟨hk, hmem⟩ := ih (fun q' hq' => hq q' (List.mem_cons_of_mem _ hq')) d'
    rw [List.foldl_cons, hone]
    refine ⟨hk, fun ip => ?_⟩
    rw [hmem ip, List.exists_mem_cons_iff, ← or_assoc, hd' ip]

section Calls

open Proc

variable {env : ℕ → Interrupt} {t u : ℕ} {φ : Kernel → Prop}

/-- Between two quiet turns a call leaves the kernel as it is. -/
theorem syscall_until (hquiet : Quiet env t u) (c : Call) :
    Triple (Until (T := T) t u φ) (syscall env c) (fun _ => Until t u φ) fun _ => True := by
  intro w hw
  have hw' : Until t u φ { w with kernel := run w.kernel (env w.turn).events, turn := w.turn + 1 } := by
    refine ⟨Nat.lt_succ_of_lt hw.1, fun hu => ?_⟩
    show φ (run w.kernel (env w.turn).events)
    rw [hquiet.events w.turn hw.1 hu]
    exact hw.2 (Nat.le_of_succ_le hu)
  unfold syscall
  cases (env w.turn).outcome c with
  | ok => exact hw'
  | error => exact hw'
  | kill => exact trivial

/-- A dump from a world, if nothing happens in between. -/
theorem dumpMap_at {α : Type} [DecidableEq α] (text : α → Text) (keys : Interrupt → List (List Event × α))
    (sel : Kernel → Dict α UInt32) (w : World T) :
    Post (fun r w' => w'.turn = w.turn + 1 ∧ (r = none → (env w.turn).outcome .dump = .error) ∧
        ((∀ q ∈ keys (env w.turn), q.1 = []) → w'.kernel = found env w ∧ ∀ res, r = some res →
          ∀ ip, ip ∈ res ↔ ∃ q ∈ keys (env w.turn), q.2 ∈ sel (found env w) ∧ ip = text q.2))
      (fun _ => True) (dumpMap env text keys sel w) := by
  unfold dumpMap
  rw [bind_some (x := Proc.get) rfl]
  cases ho : (env w.turn).outcome .dump with
  | kill =>
    have hcall : syscall env .dump w = (⟨found env w, w.file, w.metrics, w.log, w.deletes, w.turn + 1⟩, none) := by
      unfold syscall; rw [ho]; rfl
    rw [bind_none hcall]
    exact trivial
  | error =>
    have hcall : syscall env .dump w =
        (⟨found env w, w.file, w.metrics, w.log, w.deletes, w.turn + 1⟩, some false) := by
      unfold syscall; rw [ho]; rfl
    rw [bind_some hcall]
    exact ⟨rfl, fun _ => rfl, fun _ => ⟨rfl, fun res h => nomatch h⟩⟩
  | ok =>
    have hcall : syscall env .dump w = (⟨found env w, w.file, w.metrics, w.log, w.deletes, w.turn + 1⟩, some true) := by
      unfold syscall; rw [ho]; rfl
    rw [bind_some hcall]
    refine ⟨rfl, fun h => (by cases h), fun hq => ?_⟩
    obtain ⟨hk, hmem⟩ := lookups_quiet text sel hq (found env w) Dict.empty
    refine ⟨hk, fun res h ip => ?_⟩
    cases h
    exact (hmem ip).trans ⟨fun h => h.resolve_left fun h => (nomatch h), Or.inr⟩

/-- A dump in a quiet stretch shows only what is in the map. -/
theorem dumpMap_until {k : Kernel} {α : Type} [DecidableEq α] (text : α → Text)
    {keys : Interrupt → List (List Event × α)}
    (sel : Kernel → Dict α UInt32) (hquiet : Quiet env t u)
    (hkeys : ∀ n, t < n → n < u → ∀ q ∈ keys (env n), q.1 = []) {ψ : Prop} :
    Triple (Until (T := T) t u fun k' => k' = k ∧ ψ) (dumpMap env text keys sel)
      (fun r => Until t u fun k' => k' = k ∧ ψ ∧ ∀ res, r = some res → ∀ ip ∈ res, ∃ a ∈ sel k, ip = text a)
      fun _ => True := by
  intro w hw
  have hdump := @dumpMap_at _ env _ _ text keys sel w
  cases hx : dumpMap env text keys sel w with
  | mk w' r =>
    rw [hx] at hdump
    cases r with
    | none => exact trivial
    | some r =>
      obtain ⟨hturn, -, hshow⟩ := hdump
      refine ⟨hturn ▸ Nat.lt_succ_of_lt hw.1, fun hu => ?_⟩
      rw [hturn] at hu
      obtain ⟨hk, hψ⟩ := hw.2 (Nat.le_of_succ_le hu)
      have hfound : found env w = k := by
        unfold found
        rw [hquiet.events w.turn hw.1 hu, hk]
        rfl
      obtain ⟨hk', hmem⟩ := hshow (hkeys w.turn hw.1 hu)
      rw [hfound] at hk' hmem
      refine ⟨hk', hψ, fun res hr ip hip => ?_⟩
      obtain ⟨q, -, hin, hip⟩ := (hmem res hr ip).1 hip
      exact ⟨q.2, hin, hip⟩

end Calls

/-! ## Looking -/

/-- What the allowlist caches are refreshed to. -/
structure Cached (fds : Fds) (k : Kernel) (b : Brain T) : Prop where
  v4 : ∀ a, (k.view (.v4 a)).allowed = true → (Source.v4 a).text ∈ b.allowlistCache
  v6 : opened fds.blacklistV6 = true → ∀ a, (k.view (.v6 a)).allowed = true → (Source.v6 a).text ∈ b.allowlistV6Cache

/-- What a tick shows of the blacklists is on them. -/
structure Sight.Listed (fds : Fds) (k : Kernel) (s : Sight) : Prop where
  v4 : ∀ ip ∈ s.blacklist, ∃ a, ip = (Source.v4 a).text ∧ (k.view (.v4 a)).listed = true
  v6 : ∀ ip ∈ s.blacklistV6, opened fds.blacklistV6 = true ∧ ∃ a, ip = (Source.v6 a).text ∧
    (k.view (.v6 a)).listed = true

/-- **What such a tick would notice is blocked in the kernel.** -/
theorem blocked_of_new {fds : Fds} {k : Kernel} {b : Brain T} {s : Sight} (hc : Cached fds k b)
    (hs : s.Listed fds k) {ip : Text}
    (hip : ip ∈ s.new b) : ∃ s : Source, s.text = ip ∧ (k.view s).Blocked := by
  rcases hip with ⟨hip, hnot⟩ | ⟨hip, hnot⟩
  · obtain ⟨a, rfl, hlisted⟩ := hs.v4 ip hip
    exact ⟨.v4 a, rfl, hlisted, Bool.eq_false_iff.2 fun h => hnot (hc.v4 a h)⟩
  · obtain ⟨hopen, a, rfl, hlisted⟩ := hs.v6 ip hip
    exact ⟨.v6 a, rfl, hlisted, Bool.eq_false_iff.2 fun h => hnot (hc.v6 hopen a h)⟩

section Look

open Proc

variable {env : ℕ → Interrupt} {args : Args T} {fds : Fds} {t u : ℕ} {k : Kernel}

/-- A clean tick is quiet. -/
theorem Clean.quiet [Sub T] [LE T] {now : T} {b : Brain T} {w w' : World T} (h : Clean env args fds now b w w') :
    Quiet env w.turn w'.turn where
  events := h.events
  keys n hn := h.keys n hn.le
  keysV6 n hn := h.keysV6 n hn.le

/-- The second half of the refresh of a clean tick. -/
theorem refresh_cleanV6 [Sub T] [LE T] {now : T} {b b₁ : Brain T} {w w₁ w' : World T}
    (h : Clean env args fds now b w w')
    (hturn : w₁.turn = w.turn + 1)
    (hv4 : w₁.turn ≤ w'.turn → w₁.kernel = found env w ∧
      ∀ a, ((found env w).view (.v4 a)).allowed = true → (Source.v4 a).text ∈ b₁.allowlistCache) :
    Post (fun b' => Until w.turn w'.turn fun k => k = found env w ∧ Cached fds (found env w) b') (fun _ => True)
      ((do
        match ← dumpMapU32V6 env fun k => k.v6.allowlistMap.entries with
        | none => pure b₁
        | some cacheV6 => pure { b₁ with allowlistV6Cache := cacheV6, allowlistTs := now } :
    Proc (World T) (Brain T)) w₁) := by
  have hdump := @dumpMap_at _ env _ _ keyToIpV6 Interrupt.keysV6 (fun k => k.v6.allowlistMap.entries) w₁
  unfold dumpMapU32V6
  cases hx : dumpMap env keyToIpV6 Interrupt.keysV6 (fun k => k.v6.allowlistMap.entries) w₁ with
  | mk w₂ r =>
    rw [hx] at hdump
    cases r with
    | none => rw [bind_none hx]; exact trivial
    | some r =>
      rw [bind_some hx]
      obtain ⟨hturn₂, hnone, hshow⟩ := hdump
      rw [hturn] at hnone hshow
      have hle : w₂.turn ≤ w'.turn → w₁.turn ≤ w'.turn := fun hu => by omega
      have hkernel : w₂.turn ≤ w'.turn → found env w₁ = found env w := by
        intro hu
        unfold found
        rw [hturn, h.events _ (Nat.lt_succ_self _) (by omega), (hv4 (by omega)).1]
        rfl
      have hquiet : w₂.turn ≤ w'.turn → ∀ q ∈ (env (w.turn + 1)).keysV6, q.1 = [] :=
        fun hu => h.keysV6 _ (Nat.le_succ _) (by omega)
      cases r with
      -- a clean tick has no failed dump of an open map, so the IPv6 blacklist is not read at all
      | none =>
        refine ⟨by show w.turn < w₂.turn; omega, fun hu => ?_⟩
        refine ⟨(hshow (hquiet hu)).1.trans (hkernel hu), (hv4 (hle hu)).2, fun hblack => ?_⟩
        have herr := hnone rfl
        rw [(h.allowlistV6 hblack).2.1] at herr
        cases herr
      | some cacheV6 =>
        refine ⟨by show w.turn < w₂.turn; omega, fun hu => ?_⟩
        obtain ⟨hk, hmem⟩ := hshow (hquiet hu)
        rw [hkernel hu] at hk hmem
        refine ⟨hk, (hv4 (hle hu)).2, fun hblack a ha => (hmem cacheV6 rfl _).2 ?_⟩
        have hin := (IpMaps.allowed_iff (found env w).v6 a).1 ha
        obtain ⟨q, hq, rfl⟩ := (h.allowlistV6 hblack).2.2 a hin
        exact ⟨q, hq, hin, rfl⟩

/-- The refresh of a clean tick. -/
theorem refresh_clean [Sub T] [LE T] [DecidableLE T] {now : T} {b : Brain T} {w w' : World T}
    (h : Clean env args fds now b w w') :
    Post (fun b' => Until w.turn w'.turn fun k => k = found env w ∧ Cached fds (found env w) b') (fun _ => True)
      (refreshAllowlist env args fds now b w) := by
  unfold refreshAllowlist
  rw [if_pos h.due]
  have hdump := @dumpMap_at _ env _ _ keyToIp Interrupt.keys (fun k => k.v4.allowlistMap.entries) w
  unfold dumpMapU32
  cases hx : dumpMap env keyToIp Interrupt.keys (fun k => k.v4.allowlistMap.entries) w with
  | mk w₁ r =>
    rw [hx] at hdump
    cases r with
    | none => rw [bind_none hx]; exact trivial
    | some r =>
      rw [bind_some hx]
      obtain ⟨hturn, hnone, hshow⟩ := hdump
      cases r with
      | none =>
        have herr := hnone rfl
        rw [h.allowlist.1] at herr
        cases herr
      | some cache =>
        have hv4 : w₁.turn ≤ w'.turn → w₁.kernel = found env w ∧
            ∀ a, ((found env w).view (.v4 a)).allowed = true → (Source.v4 a).text ∈ cache := by
          intro hu
          obtain ⟨hk, hmem⟩ := hshow (h.keys w.turn le_rfl (by omega))
          refine ⟨hk, fun a ha => (hmem cache rfl _).2 ?_⟩
          have hin := (IpMaps.allowed_iff (found env w).v4 a).1 ha
          obtain ⟨q, hq, rfl⟩ := h.allowlist.2 a hin
          exact ⟨q, hq, hin, rfl⟩
        dsimp only
        -- without the IPv6 allowlist the refresh ends here, and no IPv6 block is read
        by_cases hopen : opened fds.allowlistV6 = true
        · rw [if_pos hopen]
          exact refresh_cleanV6 h hturn hv4
        · rw [if_neg hopen]
          refine ⟨by omega, fun hu => ⟨(hv4 hu).1, (hv4 hu).2, fun hblack => ?_⟩⟩
          exact absurd (h.allowlistV6 hblack).1 hopen

/-- A dump of the IPv6 maps, if they are open. -/
theorem dumpOpened_until (hquiet : Quiet env t u) (fd : Option ℕ) (sel : Kernel → Dict Ip6 UInt32) {ψ : Prop} :
    Triple (Until (T := T) t u fun k' => k' = k ∧ ψ) (dumpOpened env fd sel)
      (fun r => Until t u fun k' => k' = k ∧ ψ ∧ ∀ res, r = some res → ∀ ip ∈ res, opened fd = true ∧
        ∃ a ∈ sel k, ip = (Source.v6 a).text) fun _ => True := by
  unfold dumpOpened
  refine Triple.ite (fun hopen => ?_) fun _ => Triple.pure fun w hw => ?_
  · refine (dumpMap_until keyToIpV6 sel hquiet hquiet.keysV6).post fun r w hw => ?_
    exact hw.mono fun k' h => ⟨h.1, h.2.1, fun res hr ip hip => ⟨hopen, h.2.2 res hr ip hip⟩⟩
  · refine hw.mono fun k' h => ⟨h.1, h.2, fun res hr ip hip => ?_⟩
    cases hr
    exact nomatch hip

/-- What a dump shows is on the IPv4 blacklist. -/
def ListedV4 (k : Kernel) (dump : Dict Text UInt32) : Prop :=
  ∀ ip ∈ dump, ∃ a, ip = (Source.v4 a).text ∧ (k.view (.v4 a)).listed = true

/-- What a dump shows is on the IPv6 blacklist, which is open. -/
def ListedV6 (fds : Fds) (k : Kernel) (dump : Dict Text UInt32) : Prop :=
  ∀ ip ∈ dump, opened fds.blacklistV6 = true ∧ ∃ a, ip = (Source.v6 a).text ∧ (k.view (.v6 a)).listed = true

theorem listedV4_empty (k : Kernel) : ListedV4 k Dict.empty := fun _ h => (nomatch h)

theorem listedV6_empty (fds : Fds) (k : Kernel) : ListedV6 fds k Dict.empty := fun _ h => (nomatch h)

/-- A quiet dump of the blacklist is the blacklist. -/
theorem dumpBlacklist_until (hquiet : Quiet env t u) {ψ : Prop} :
    Triple (Until (T := T) t u fun k' => k' = k ∧ ψ) (dumpMapU32 env fun k => k.v4.blacklistMap.entries)
      (fun r => Until t u fun k' => k' = k ∧ ψ ∧ ∀ res, r = some res → ListedV4 k res) fun _ => True := by
  refine (dumpMap_until keyToIp _ hquiet hquiet.keys).post fun r w hw => hw.mono fun k' h => ?_
  refine ⟨h.1, h.2.1, fun res hr ip hip => ?_⟩
  obtain ⟨a, ha, hip⟩ := h.2.2 res hr ip hip
  exact ⟨a, hip, (IpMaps.listed_iff k.v4 a).2 ha⟩

/-- The same for IPv6 where the map is open. -/
theorem dumpBlacklistV6_until (hquiet : Quiet env t u) {ψ : Prop} :
    Triple (Until (T := T) t u fun k' => k' = k ∧ ψ) (dumpOpened env fds.blacklistV6 fun k => k.v6.blacklistMap.entries)
      (fun r => Until t u fun k' => k' = k ∧ ψ ∧ ∀ res, r = some res → ListedV6 fds k res) fun _ => True := by
  refine (dumpOpened_until hquiet _ _).post fun r w hw => hw.mono fun k' h => ?_
  refine ⟨h.1, h.2.1, fun res hr ip hip => ?_⟩
  obtain ⟨hopen, a, ha, hip⟩ := h.2.2 res hr ip hip
  exact ⟨hopen, a, hip, (IpMaps.listed_iff k.v6 a).2 ha⟩

/-- To read the aggregate bucket changes nothing. -/
theorem getGlobalTokens_until (hquiet : Quiet env t u) {φ : Kernel → Prop} :
    Triple (Until (T := T) t u φ) (getGlobalTokens env) (fun _ => Until t u φ) fun _ => True := by
  refine (syscall_until hquiet .tokens).bind fun ok => ?_
  cases ok with
  | true => exact fun w hw => hw
  | false => exact Triple.pure fun w hw => hw

/-- The dumps of a quiet stretch. -/
theorem readMaps_until (hquiet : Quiet env t u) {ψ : Prop} :
    Triple (Until (T := T) t u fun k' => k' = k ∧ ψ) (readMaps env fds)
      (fun s => Until t u fun k' => k' = k ∧ ψ ∧ s.Listed fds k) fun _ => True := by
  refine (dumpBlacklist_until hquiet).bind fun r => ?_
  cases r with
  | none => exact Triple.pure fun w hw => hw.mono fun k' h => ⟨h.1, h.2.1, listedV4_empty k, listedV6_empty fds k⟩
  | some blacklist =>
    -- what the first dump shows is carried through the others
    refine Triple.pre (P := Until t u fun k' => k' = k ∧ ψ ∧ ListedV4 k blacklist) ?_
      fun w hw => hw.mono fun k' h => ⟨h.1, h.2.1, h.2.2 blacklist rfl⟩
    refine (dumpMap_until keyToIp _ hquiet hquiet.keys).bind fun r => ?_
    cases r with
    | none => exact Triple.pure fun w hw => hw.mono fun k' h => ⟨h.1, h.2.1.1, h.2.1.2, listedV6_empty fds k⟩
    | some counts =>
      refine Triple.pre (P := Until t u fun k' => k' = k ∧ ψ ∧ ListedV4 k blacklist) ?_
        fun w hw => hw.mono fun k' h => ⟨h.1, h.2.1⟩
      refine (dumpBlacklistV6_until hquiet).bind fun r => ?_
      cases r with
      | none => exact Triple.pure fun w hw => hw.mono fun k' h => ⟨h.1, h.2.1.1, h.2.1.2, listedV6_empty fds k⟩
      | some blacklistV6 =>
        refine Triple.pre (P := Until t u fun k' => k' = k ∧ ψ ∧ ListedV4 k blacklist ∧ ListedV6 fds k blacklistV6) ?_
          fun w hw => hw.mono fun k' h => ⟨h.1, h.2.1.1, h.2.1.2, h.2.2 blacklistV6 rfl⟩
        -- the last dump and the tokens show nothing of the blacklists
        refine (dumpOpened_until hquiet _ _).bind fun r => ?_
        cases r with
        | none => exact Triple.pure fun w hw => hw.mono fun k' h => ⟨h.1, h.2.1.1, h.2.1.2.1, h.2.1.2.2⟩
        | some countsV6 =>
          refine (getGlobalTokens_until hquiet).bind fun tokens => Triple.pure fun w hw => ?_
          exact hw.mono fun k' h => ⟨h.1, h.2.1.1, h.2.1.2.1, h.2.1.2.2⟩

/-- **A clean tick looks at the kernel as it found it**, and what it would notice is blocked there. -/
theorem look_clean [Sub T] [LE T] [DecidableLE T] {now : T} {b : Brain T} {w w' : World T}
    (h : Clean env args fds now b w w') :
    Post (fun r => Until w.turn w'.turn fun k => k = found env w ∧
        ∀ ip ∈ r.2.new r.1, ∃ s : Source, s.text = ip ∧ ((found env w).view s).Blocked) (fun _ => True)
      (look env args fds now b w) := by
  have hrefresh := refresh_clean h
  unfold look
  cases hx : refreshAllowlist env args fds now b w with
  | mk w₁ r =>
    rw [hx] at hrefresh
    cases r with
    | none => rw [bind_none hx]; exact trivial
    | some b₁ =>
      rw [bind_some hx]
      have hrest : Triple (Until w.turn w'.turn fun k => k = found env w ∧ Cached fds (found env w) b₁)
          (do
            let s ← readMaps env fds
            pure (b₁, s) : Proc (World T) (Brain T × Sight))
          (fun r => Until w.turn w'.turn fun k => k = found env w ∧
            ∀ ip ∈ r.2.new r.1, ∃ s : Source, s.text = ip ∧ ((found env w).view s).Blocked) fun _ => True :=
        (readMaps_until h.quiet).bind fun s => Triple.pure fun _ hw =>
          hw.mono fun k h => ⟨h.1, fun ip hip => blocked_of_new h.2.1 h.2.2 hip⟩
      exact hrest w₁ hrefresh

end Look

/-! ## Acting -/

/-- A kernel from which blocks were taken, but none of those that are still tracked. -/
structure Trimmed (k : Kernel) (B : Dict Text T) (k' : Kernel) : Prop where
  allowed : ∀ s, (k'.view s).allowed = (k.view s).allowed
  listed : ∀ s, (k'.view s).listed = true → (k.view s).listed = true
  kept : ∀ s, Source.text s ∈ B → (k.view s).listed = true → (k'.view s).listed = true

/-- A kernel is trimmed to its own blocks. -/
theorem Trimmed.refl (k : Kernel) (B : Dict Text T) : Trimmed k B k :=
  ⟨fun _ => rfl, fun _ h => h, fun _ _ h => h⟩

/-- To one source, a delete is its own or nothing. -/
theorem Kernel.act_unblacklist_cases (k : Kernel) (s s' : Source) :
    k.act s' (unblacklist s) = .unblacklist ∨ k.act s' (unblacklist s) = .idle := by
  cases s with
  | v4 a => cases s' with
    | v4 a' =>
      show (if a = a' then Act.unblacklist else Act.idle) = _ ∨ (if a = a' then Act.unblacklist else Act.idle) = _
      by_cases he : a = a'
      · rw [if_pos he]; exact Or.inl rfl
      · rw [if_neg he]; exact Or.inr rfl
    | v6 a' => exact Or.inr rfl
  | v6 a => cases s' with
    | v4 a' => exact Or.inr rfl
    | v6 a' =>
      show (if a = a' then Act.unblacklist else Act.idle) = _ ∨ (if a = a' then Act.unblacklist else Act.idle) = _
      by_cases he : a = a'
      · rw [if_pos he]; exact Or.inl rfl
      · rw [if_neg he]; exact Or.inr rfl

/-- A delete of a source that is no longer tracked. -/
theorem Trimmed.unblacklist {k k' : Kernel} {B : Dict Text T} (h : Trimmed k B k') (s : Source) :
    Trimmed k (B.erase s.text) (k'.step (FluxGuard.unblacklist s)) where
  allowed s' := by
    rw [Kernel.view_step, ← h.allowed s']
    rcases k'.act_unblacklist_cases s s' with ha | ha
    · rw [ha]; rfl
    · rw [ha]; rfl
  listed s' hl := by
    rw [Kernel.view_step] at hl
    rcases k'.act_unblacklist_cases s s' with ha | ha
    · rw [ha] at hl; exact nomatch hl
    · rw [ha] at hl; exact h.listed s' hl
  kept s' hs' hl := by
    obtain ⟨hne, hmem⟩ := Dict.mem_erase.1 hs'
    refine Kernel.listed_step (h.kept s' hmem hl) fun he => hne ?_
    rw [unblacklist_injective he]

/-- A block fewer tracked, and still trimmed. -/
theorem Trimmed.erase {k k' : Kernel} {B : Dict Text T} (h : Trimmed k B k') (ip : Text) : Trimmed k (B.erase ip) k' :=
  ⟨h.allowed, h.listed, fun s hs => h.kept s (Dict.mem_erase.1 hs).2⟩

section Act

open Proc

variable {env : ℕ → Interrupt} {args : Args T} {fds : Fds} {t u : ℕ} {k : Kernel} {φ : Kernel → Prop}

/-- A metric changes no kernel. -/
theorem metric_until (f : MetricsState → MetricsState) {C : World T → Prop} :
    Triple (Until t u φ) (metric f) (fun _ => Until t u φ) C := Triple.modify fun _ hw => hw

/-- Nor does a line of the log. -/
theorem logLine_until (line : LogLine) {C : World T → Prop} :
    Triple (Until t u φ) (logLine line) (fun _ => Until t u φ) C := Triple.modify fun _ hw => hw

/-- Nor does a save of the checkpoint. -/
theorem save_until (hquiet : Quiet env t u) (B : Dict Text T) :
    Triple (Until t u φ) (saveCheckpoint env B) (fun _ => Until t u φ) fun _ => True := by
  refine Triple.bind (Triple.modify fun _ hw => hw) fun _ => (syscall_until hquiet .save).bind fun ok => ?_
  cases ok with
  | true => exact Triple.modify fun _ hw => hw
  | false => exact Triple.pure fun _ hw => hw

theorem shieldsUp_until (globalTokens prevGlobalTokens : ℤ) {C : World T → Prop} :
    Triple (Until t u φ) (shieldsUp globalTokens prevGlobalTokens) (fun _ => Until t u φ) C :=
  Triple.ite (fun _ => (metric_until _).bind fun _ => logLine_until _) fun _ => Triple.pure fun _ hw => hw

/-- Nor does the loop over the dump. -/
theorem detect_until [Add T] (hquiet : Quiet env t u) (now : T) {dump : Dict Text UInt32} (cache : Dict Text UInt32)
    (hdump : ∀ ip ∈ dump, ∃ s : Source, ip = s.text) {B : Dict Text T} (hB : Canonical B.get?) :
    Triple (Until t u φ) (detect env args now dump cache B) (fun B' w => Canonical B'.get? ∧ Until t u φ w)
      fun _ => True := by
  refine (Triple.foldlM (I := fun _ B' w => Canonical B'.get? ∧ Until t u φ w) (fun done ip rest B' hl => ?_) B).pre
    fun w hw => ⟨hB, hw⟩
  refine Triple.and_pre fun hB' => ?_
  unfold detectOne
  refine Triple.ite (fun _ => ?_) fun _ => Triple.pure fun w hw => ⟨hB', hw⟩
  refine (metric_until _).bind fun _ => (save_until hquiet _).bind fun _ => (logLine_until _).bind fun _ => ?_
  obtain ⟨s, rfl⟩ := hdump ip (show ip ∈ dump.keys by rw [hl]; simp)
  exact Triple.pure fun w hw => ⟨by rw [get?_set_eq]; exact hB'.update s _, hw⟩

/-- A delete takes its own source off the blacklist. -/
theorem deleteElem_until (hquiet : Quiet env t u) {B : Dict Text T} (s : Source) :
    Triple (Until (T := T) t u (Trimmed k B)) (deleteElem env s) (fun _ => Until t u (Trimmed k (B.erase s.text)))
      fun _ => True := by
  refine (syscall_until hquiet .delete).bind fun ok => ?_
  cases ok with
  | true => exact fun w hw => ⟨hw.1, fun hu => (hw.2 hu).unblacklist s⟩
  | false => exact fun w hw => ⟨hw.1, fun hu => (hw.2 hu).erase s.text⟩

/-- So does an expired block. -/
theorem expireOne_until (hquiet : Quiet env t u) (B : Dict Text T) (s : Source) :
    Triple (Until t u (Trimmed k B)) (expireOne env fds B s.text)
      (fun B' w => B' = B.erase s.text ∧ Until t u (Trimmed k B') w) fun _ => True := by
  have hunblock : Triple (Until (T := T) t u (Trimmed k B)) (unblock env fds s.text)
      (fun _ => Until t u (Trimmed k (B.erase s.text))) fun _ => True := by
    unfold unblock
    cases s with
    | v4 a =>
      rw [if_neg (show ':' ∉ (Source.v4 a).text from colon_not_mem_keyToIp a), delMapU32,
        show ipToKey (Source.v4 a).text = some a from ipToKey_keyToIp a]
      exact deleteElem_until hquiet (.v4 a)
    | v6 a =>
      rw [if_pos (show ':' ∈ (Source.v6 a).text from colon_mem_keyToIpV6 a), delMapU32V6,
        show ipToKeyV6 (Source.v6 a).text = some a from ipToKeyV6_keyToIpV6 a]
      refine Triple.ite (fun _ => deleteElem_until hquiet (.v6 a)) fun _ => Triple.pure fun w hw => ?_
      exact hw.mono fun _ h => h.erase _
  refine hunblock.bind fun ok => ?_
  cases ok with
  | true => exact (metric_until _).bind fun _ => (logLine_until _).bind fun _ => Triple.pure fun w hw => ⟨rfl, hw⟩
  | false => exact Triple.pure fun w hw => ⟨rfl, hw⟩

/-- The loop over the tracked blocks keeps the kernel trimmed to those left. -/
theorem expire_until [LE T] [DecidableLE T] (hquiet : Quiet env t u) (now : T) {B : Dict Text T}
    (hB : Canonical B.get?) :
    Triple (Until t u (Trimmed k B)) (expire env fds now B) (fun B' => Until t u (Trimmed k B')) fun _ => True := by
  unfold expire
  refine Triple.ite (fun _ => Triple.pure fun _ hw => hw) fun _ => ?_
  refine (Triple.foldlM (I := fun _ B' => Until t u (Trimmed k B')) (fun done ip rest B' hl => ?_) B).bind fun B' =>
    (save_until hquiet B').bind fun _ => Triple.pure fun _ hw => hw
  obtain ⟨D, hD, -⟩ := (mem_expired now).1 (show ip ∈ expired now B by rw [hl]; simp)
  obtain ⟨s, rfl⟩ := hB ip (by rw [hD]; exact Option.some_ne_none _)
  exact (expireOne_until hquiet B' s).post fun _ _ hw => hw.2

/-- **A tick exports the addresses that it tracks.** -/
theorem publish_exports (s : Sight) (B : Dict Text T) {P : World T → Prop} {C : World T → Prop}
    (hP : ∀ w m l, P w → P { w with metrics := m, log := l }) :
    Triple P (publish args s B)
      (fun _ w => P w ∧ w.metrics.blockedIpsSet = B.keys ∧ w.metrics.blockedIps = B.size) C := by
  unfold publish
  refine Triple.bind (Q := fun _ w => P w ∧ w.metrics.blockedIpsSet = B.keys)
    (Triple.modify fun w hw => ⟨hP w _ _ hw, rfl⟩) fun _ => ?_
  refine Triple.bind (Q := fun _ w => P w ∧ w.metrics.blockedIpsSet = B.keys ∧ w.metrics.blockedIps = B.size)
    (Triple.modify fun w hw => ⟨hP w _ _ hw.1, hw.2, rfl⟩) fun _ => ?_
  exact Triple.ite (fun _ => Triple.pure fun _ hw => hw) fun _ => Triple.modify fun w hw => ⟨hP w _ _ hw.1, hw.2⟩

/-- The rest of a tick, in a quiet stretch. -/
theorem act_until [Add T] [LE T] [DecidableLE T] (hquiet : Quiet env t u) (now : T) {b : Brain T}
    (hB : Canonical b.blockedUntil.get?) {s : Sight} (hs : s.Texts fds) :
    Triple (Until t u (· = k)) (act env args fds now b s)
      (fun b' w => Until t u (Trimmed k b'.blockedUntil) w ∧ w.metrics.blockedIpsSet = b'.blockedUntil.keys)
      fun _ => True := by
  have hv4 : ∀ ip ∈ s.blacklist, ∃ s' : Source, ip = s'.text := fun ip hip => (hs.v4 ip hip).imp' _ fun _ h => h
  have hv6 : ∀ ip ∈ s.blacklistV6, ∃ s' : Source, ip = s'.text := fun ip hip => (hs.v6 ip hip).2.imp' _ fun _ h => h
  refine (shieldsUp_until _ _).bind fun _ => ?_
  refine (detect_until hquiet now _ hv4 hB).bind fun B₁ => Triple.and_pre fun hB₁ => ?_
  refine (detect_until hquiet now _ hv6 hB₁).bind fun B₂ => Triple.and_pre fun hB₂ => ?_
  refine Triple.pre (P := Until t u (Trimmed k B₂)) ?_ fun w hw => hw.mono fun k' h => by
    rw [h]; exact Trimmed.refl k B₂
  refine (expire_until hquiet now hB₂).bind fun B₃ => ?_
  exact (publish_exports s B₃ fun _ _ _ hw => hw).bind fun _ => Triple.pure fun w hw => ⟨hw.1, hw.2.1⟩

end Act

/-! ## A whole tick -/

section WholeTick

open Proc

variable [Add T] [Sub T] [LE T] [DecidableLE T]
variable {env : ℕ → Interrupt} {args : Args T} {fds : Fds} {now : T} {b b' : Brain T} {w w' : World T}

/-- What a clean tick that runs to its end did. -/
theorem tick_clean (hB : Canonical b.blockedUntil.get?) (hclean : Clean env args fds now b w w')
    (htick : tick env args fds now b w = (w', some b')) :
    (∀ ip ∈ noticed env args fds now b w, ∃ s : Source, s.text = ip ∧ ((found env w).view s).Blocked) ∧
      Trimmed (found env w) b'.blockedUntil w'.kernel ∧ w'.metrics.blockedIpsSet = b'.blockedUntil.keys := by
  have hlook := look_clean hclean
  have hknown : Known w.file w.deletes ∅ w := ⟨rfl, rfl, fun _ h => (nomatch h)⟩
  have htexts := look_spec args fds (Spared.empty env) now b w hknown
  unfold tick at htick
  cases hx : look env args fds now b w with
  | mk w₁ r =>
    rw [hx] at hlook htexts
    cases r with
    | none => rw [bind_none hx] at htick; cases htick
    | some r =>
      rw [bind_some hx] at htick
      replace hlook : Until w.turn w'.turn (fun k => k = found env w ∧
        ∀ ip ∈ r.2.new r.1, ∃ s : Source, s.text = ip ∧ ((found env w).view s).Blocked) w₁ := hlook
      have hB₁ : Canonical r.1.blockedUntil.get? := by rw [htexts.2.2]; exact hB
      have hact := (act_until hclean.quiet now hB₁ htexts.2.1).of_some (hlook.mono fun k h => h.1) htick
      have hend : w₁.turn ≤ w'.turn := by
        have hquiet : Quiet env (w₁.turn - 1) 0 :=
          ⟨fun n _ h => absurd h (Nat.not_lt_zero n), fun n _ h => absurd h (Nat.not_lt_zero n),
            fun n _ h => absurd h (Nat.not_lt_zero n)⟩
        have hpos := hlook.1
        have hstart : Until (w₁.turn - 1) 0 (· = found env w) w₁ := ⟨by omega, fun h => by omega⟩
        have hlt := ((act_until hquiet now hB₁ htexts.2.1).of_some hstart htick).1.1
        omega
      rw [noticed_of_look now hx]
      exact ⟨(hlook.2 hend).2, hact.1.2 le_rfl, hact.2⟩

/-- **A clean tick is truthful exactly when every block that it goes on tracking was in force.** -/
theorem truthful_tick (hB : Canonical b.blockedUntil.get?) (hclean : Clean env args fds now b w w')
    (htick : tick env args fds now b w = (w', some b'))
    (hledger : b'.blockedUntil.get? = Ledger.tick b.blockedUntil.get? now args.cooldownSec
    (noticed env args fds now b w)) :
    Truthful w' ↔ Stands (found env w) now b := by
  obtain ⟨hnew, htrim, hset⟩ := tick_clean hB hclean htick
  unfold Truthful
  rw [hset]
  constructor
  -- a block that is not due is still tracked after the tick, so it is exported
  · intro htrue s D hD hlate
    have htracked : s.text ∈ b'.blockedUntil := by
      refine Dict.mem_iff_isSome.2 ?_
      rw [hledger, Ledger.tick_of_some hD hlate]
      rfl
    obtain ⟨s', htext, hblocked⟩ := htrue s.text htracked
    rw [Source.text_injective htext] at hblocked
    exact ⟨htrim.listed s hblocked.listed, (htrim.allowed s).symm.trans hblocked.allowed⟩
  -- an exported address was tracked before the tick, or is one that it noticed
  · intro hstands ip hip
    have hbefore : ∃ s : Source, s.text = ip ∧ ((found env w).view s).Blocked := by
      obtain ⟨D, hD⟩ := Option.isSome_iff_exists.1 (Dict.mem_iff_isSome.1 hip)
      rw [hledger] at hD
      obtain ⟨hdetect, hlate⟩ := Ledger.expire_eq_some_iff.1 hD
      rcases Ledger.of_detect hdetect with hold | ⟨-, hfresh, -⟩
      · obtain ⟨s, rfl⟩ := hB ip (by rw [hold]; exact Option.some_ne_none _)
        exact ⟨s, rfl, hstands s D hold hlate⟩
      · exact hnew ip hfresh
    obtain ⟨s, rfl, hblocked⟩ := hbefore
    exact ⟨s, rfl, htrim.kept s hip hblocked.listed, (htrim.allowed s).trans hblocked.allowed⟩

variable [Zero T] {sys₀ : System T} {acts : List (SystemAct T)}

/-- **The exported blocked set is truthful** after a clean tick, in any run, exactly when every block
that the brain tracked and that was not yet due was still in force. -/
theorem truthful_iff (hp : sys₀.proc = none) (h₀ : Canonical sys₀.blocked) {n : ℕ} (hn : n < acts.length)
    (ha : acts[n] = .tick now) (hb : (sysAt env args fds sys₀ acts n).proc = some b)
    (hdone : (sysAt env args fds sys₀ acts (n + 1)).proc = some b')
    (hclean : Clean env args fds now b (sysAt env args fds sys₀ acts n).world
    (sysAt env args fds sys₀ acts (n + 1)).world) :
    Truthful (sysAt env args fds sys₀ acts (n + 1)).world ↔
      Stands (found env (sysAt env args fds sys₀ acts n).world) now b := by
  have hgood : (sysAt env args fds sys₀ acts n).Good env := good_at _ _ _ (.of_stopped env h₀ hp) hn.le
  rw [sysAt_succ _ _ _ _ _ hn, ha] at hdone hclean ⊢
  generalize sysAt env args fds sys₀ acts n = sys at *
  -- of the kinds of step only a whole tick leaves a process behind
  have hstep := System.step_cases args fds hgood (Spared.empty env) (fun _ h => nomatch h) (.tick now)
  have htick : tick env args fds now b sys.world = ((sys.step env args fds (.tick now)).world, some b') := by
    unfold System.step at hdone ⊢
    rw [hb] at hdone ⊢
    exact Prod.ext rfl hdone
  cases hstep with
  | idle hno _ _ _ _ => exact absurd ⟨rfl, by rw [hb]; rfl⟩ (hno now)
  | reboot _ _ h _ _ _ => cases h
  | cut _ _ hproc _ _ => rw [hproc] at hdone; cases hdone
  | acted hact hproc hproc' _ hacted =>
    cases hact
    rw [hb] at hproc
    cases hproc
    rw [hdone] at hproc'
    cases hproc'
    exact truthful_tick (hgood.proc b hb) hclean htick hacted.ledger

end WholeTick

/-! ## A block that another tool lifts -/

/-- All is calm, but before call 9 another tool takes the victim off the blacklist. -/
def lifted : ℕ → Interrupt := fun n => { calm n with events := if n = 9 then [unblacklist victim] else [] }

/-- The brain detects the victim at 100 and looks again at 105; its second tick begins with call 9. -/
def liftedRun : ℕ → System ℕ := sysAt lifted thirtySeconds allOpen (victimListed ℕ) [.start, .tick 100, .tick 105]

theorem clean_lifted {now : ℕ} {b : Brain ℕ} {w w' : World ℕ} (hdue : 5 ≤ now - b.allowlistTs)
    (hturn : 9 ≤ w.turn ∨ w'.turn ≤ 9) (hv4 : (found lifted w).v4.allowlistMap.entries = Dict.empty)
    (hv6 : (found lifted w).v6.allowlistMap.entries = Dict.empty) : Clean lifted thirtySeconds allOpen now b w w' where
  due := hdue
  allowlist := ⟨rfl, by rw [hv4]; exact fun a ha => nomatch ha⟩
  allowlistV6 _ := ⟨rfl, rfl, by rw [hv6]; exact fun a ha => nomatch ha⟩
  events n hlt hle := if_neg (by omega)
  keys n _ _ q hq := by rw [List.mem_singleton.1 hq]
  keysV6 n _ _ q hq := nomatch hq

theorem truthful_iff_detected :
    ∃ b, (liftedRun 1).proc = some b ∧
      (Truthful (liftedRun 2).world ↔ Stands (found lifted (liftedRun 1).world) 100 b) := by
  have hbefore : (liftedRun 1).proc.map (fun b => decide (5 ≤ 100 - b.allowlistTs)) = some true := by decide +kernel
  have hafter : (liftedRun 2).proc.isSome = true := by decide +kernel
  obtain ⟨b, hb, hdue⟩ := Option.map_eq_some_iff.1 hbefore
  obtain ⟨b', hb'⟩ := Option.isSome_iff_exists.1 hafter
  have hclean : Clean lifted thirtySeconds allOpen 100 b (liftedRun 1).world (liftedRun 2).world :=
    clean_lifted (of_decide_eq_true hdue) (Or.inr (by decide +kernel)) (by decide +kernel) (by decide +kernel)
  exact ⟨b, hb, truthful_iff rfl (show Canonical (victimListed ℕ).blocked from canonical_empty)
    (by decide) rfl hb hb' hclean⟩

/-- **A block that is lifted behind the brain's back** is exported as if it still were in force. -/
theorem stale_block :
    ∃ b, (liftedRun 2).proc = some b ∧ (liftedRun 3).proc.isSome = true ∧
      Clean lifted thirtySeconds allOpen 105 b (liftedRun 2).world (liftedRun 3).world ∧
      ¬ Truthful (liftedRun 3).world := by
  have hbefore : (liftedRun 2).proc.map (fun b => decide (5 ≤ 105 - b.allowlistTs)) = some true := by decide +kernel
  obtain ⟨b, hb, hdue⟩ := Option.map_eq_some_iff.1 hbefore
  refine ⟨b, hb, by decide +kernel, ?_, fun htrue => ?_⟩
  · exact clean_lifted (of_decide_eq_true hdue) (Or.inl (by decide +kernel)) (by decide +kernel) (by decide +kernel)
  · have hexported : victim.text ∈ (liftedRun 3).world.metrics.blockedIpsSet := by decide +kernel
    have hgone : ((liftedRun 3).world.kernel.view victim).listed = false := by decide +kernel
    obtain ⟨s, htext, hblocked⟩ := htrue _ hexported
    rw [Source.text_injective htext] at hblocked
    exact Bool.false_ne_true (hgone.symm.trans hblocked.listed)

end FluxGuard
