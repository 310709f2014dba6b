import FluxGuard.Model.World

/-!
# The brain

`monitor`: the restore at start, and one pass of its loop as `look` (the allowlist refresh
and the dumps) followed by `act` (detection, expiry, metrics). Times are of any type with
the operations that the code uses on `time.monotonic()`.

A run of the whole host is a list of `Act`s: the process starts, passes through its loop at
given times and stops, and the host reboots.
-/

namespace FluxGuard

/-- The arguments that a tick reads. -/
structure Args (T : Type) where
  cooldownSec : T
  allowlistRefreshSec : T
  noLogTicks : Bool

/-- The descriptors of the optional IPv6 maps. -/
structure Fds where
  meterV6 : Option ℕ
  blacklistV6 : Option ℕ
  allowlistV6 : Option ℕ

/-- Python's truth of a descriptor. -/
def opened : Option ℕ → Bool
  | some fd => decide (fd ≠ 0)
  | none => false

/-- The local variables of `monitor` that live from one tick to the next. -/
structure Brain (T : Type) where
  blockedUntil : Dict Text T
  allowlistCache : Dict Text UInt32
  allowlistV6Cache : Dict Text UInt32
  allowlistTs : T
  prevGlobalTokens : ℤ

/-- What a tick reads from the kernel. -/
structure Sight where
  blacklist : Dict Text UInt32
  counts : Dict Text UInt32
  blacklistV6 : Dict Text UInt32
  countsV6 : Dict Text UInt32
  globalTokens : ℤ

/-- What the variables hold before the dumps. -/
def Sight.empty : Sight := ⟨Dict.empty, Dict.empty, Dict.empty, Dict.empty, 0⟩

/-- Python's `dict.update`. -/
def Dict.update {α β : Type} [DecidableEq α] (d e : Dict α β) : Dict α β :=
  e.items.foldl (fun d p => d.set p.1 p.2) d

section Monitor

variable {T : Type} [Add T] [Sub T] [Zero T] [LE T] [DecidableLE T]
variable (env : ℕ → Interrupt) (args : Args T) (fds : Fds)

/-! ## Start -/

/-- Put one restored block back into the kernel. -/
def reapply (ip : Text) : Proc (World T) Unit :=
  if ':' ∈ ip then
    if opened fds.blacklistV6 then setMapU32V6 env ip 1 else pure ()
  else setMapU32 env ip 1

/-- `monitor` up to its loop. -/
def start : Proc (World T) (Brain T) := do
  Proc.modify fun w => { w with metrics := MetricsState.init }
  let blockedUntil ← loadCheckpoint env
  blockedUntil.keys.foldlM (fun _ ip => reapply env fds ip) ()
  pure ⟨blockedUntil, Dict.empty, Dict.empty, 0, 0⟩

/-! ## Reading -/

/-- The caches of the allowlists are read again once they are old enough; a dump that fails leaves the
rest as it is. -/
def refreshAllowlist (now : T) (b : Brain T) : Proc (World T) (Brain T) := do
  if args.allowlistRefreshSec ≤ now - b.allowlistTs then
    match ← dumpMapU32 env fun k => k.v4.allowlistMap.entries with
    | none => pure b
    | some cache =>
      let b := { b with allowlistCache := cache }
      -- the time moves on only when every dump went through
      if opened fds.allowlistV6 then
        match ← dumpMapU32V6 env fun k => k.v6.allowlistMap.entries with
        | none => pure b
        | some cacheV6 => pure { b with allowlistV6Cache := cacheV6, allowlistTs := now }
      else pure { b with allowlistTs := now }
  else pure b

/-- An IPv6 dump, if the map is open; `none` is an `OSError`. -/
def dumpOpened (fd : Option ℕ) (sel : Kernel → Dict Ip6 UInt32) : Proc (World T) (Option (Dict Text UInt32)) :=
  if opened fd then dumpMapU32V6 env sel else pure (some Dict.empty)

/-- The dumps of one tick. A failure ends them and leaves the rest empty. -/
def readMaps : Proc (World T) Sight := do
  match ← dumpMapU32 env fun k => k.v4.blacklistMap.entries with
  | none => pure Sight.empty
  | some blacklist =>
    let s := { Sight.empty with blacklist := blacklist }
    match ← dumpMapU32 env fun k => k.v4.meterMap with
    | none => pure s
    | some counts =>
      let s := { s with counts := counts }
      match ← dumpOpened env fds.blacklistV6 fun k => k.v6.blacklistMap.entries with
      | none => pure s
      | some blacklistV6 =>
        let s := { s with blacklistV6 := blacklistV6 }
        match ← dumpOpened env fds.meterV6 fun k => k.v6.meterMap with
        | none => pure s
        | some countsV6 =>
          let globalTokens ← getGlobalTokens env
          pure { s with countsV6 := countsV6, globalTokens := globalTokens }

/-- The first half of a pass: the allowlists if they are due, then the maps. -/
def look (now : T) (b : Brain T) : Proc (World T) (Brain T × Sight) := do
  let b ← refreshAllowlist env args fds now b
  let s ← readMaps env fds
  pure (b, s)

/-! ## Acting -/

/-- `write_json_log`, as the line that it appends. -/
def logLine (line : LogLine) : Proc (World T) Unit := Proc.modify fun w => { w with log := w.log ++ [line] }

/-- A call of the metrics state. -/
def metric (f : MetricsState → MetricsState) : Proc (World T) Unit :=
  Proc.modify fun w => { w with metrics := f w.metrics }

/-- The global bucket has run out since the last pass. -/
def shieldsUp (globalTokens prevGlobalTokens : ℤ) : Proc (World T) Unit :=
  if globalTokens ≤ 0 ∧ globalTokens < prevGlobalTokens then do
    metric MetricsState.incGlobalPpsExceeded
    logLine (.shieldsUp globalTokens)
  else pure ()

/-- One address of a blacklist dump. -/
def detectOne (now : T) (cache : Dict Text UInt32) (blockedUntil : Dict Text T) (ip : Text) :
    Proc (World T) (Dict Text T) :=
  if ip ∉ blockedUntil ∧ ip ∉ cache then do
    let blockedUntil := blockedUntil.set ip (now + args.cooldownSec)
    metric MetricsState.incBlockEvents
    -- one save for each new block, before it is logged
    saveCheckpoint env blockedUntil
    logLine (.autoBlock ip blockedUntil.size)
    pure blockedUntil
  else pure blockedUntil

/-- The kernel's own blocks. -/
def detect (now : T) (dump cache : Dict Text UInt32) (blockedUntil : Dict Text T) : Proc (World T) (Dict Text T) :=
  dump.keys.foldlM (detectOne env args now cache) blockedUntil

/-- The delete of an expired block; `false` is an `OSError`. -/
def unblock (ip : Text) : Proc (World T) Bool :=
  if ':' ∈ ip then
    if opened fds.blacklistV6 then delMapU32V6 env ip else pure true
  else delMapU32 env ip

/-- One pass of the unblocking loop, its `finally` included. -/
def expireOne (blockedUntil : Dict Text T) (ip : Text) : Proc (World T) (Dict Text T) := do
  if ← unblock env fds ip then
    metric MetricsState.incUnblockEvents
    logLine (.unblock ip (blockedUntil.size - 1))
  -- dropped from the tracked blocks even if the delete failed
  pure (blockedUntil.erase ip)

/-- The blocks whose deadline has come. -/
def expired (now : T) (blockedUntil : Dict Text T) : List Text :=
  (blockedUntil.items.filter fun p => p.2 ≤ now).map Prod.fst

/-- The blocks whose time has come are lifted, and the checkpoint is saved if there are any. -/
def expire (now : T) (blockedUntil : Dict Text T) : Proc (World T) (Dict Text T) :=
  if expired now blockedUntil = [] then pure blockedUntil
  else do
    let blockedUntil ← (expired now blockedUntil).foldlM (expireOne env fds) blockedUntil
    saveCheckpoint env blockedUntil
    pure blockedUntil

/-- The metrics snapshot and the log line of a tick. -/
def publish (s : Sight) (blockedUntil : Dict Text T) : Proc (World T) Unit := do
  let allCounts := (Dict.empty.update s.counts).update s.countsV6
  metric fun m => m.updateBlockedSet blockedUntil.keys
  metric fun m => m.updateSnapshot (allCounts.mapValues UInt32.toNat) blockedUntil.size
  if args.noLogTicks then pure () else logLine (.tick allCounts.size blockedUntil.size s.globalTokens)

/-- The second half of a pass: what the loop does with what it has read. -/
def act (now : T) (b : Brain T) (s : Sight) : Proc (World T) (Brain T) := do
  shieldsUp s.globalTokens b.prevGlobalTokens
  let blockedUntil ← detect env args now s.blacklist b.allowlistCache b.blockedUntil
  let blockedUntil ← detect env args now s.blacklistV6 b.allowlistV6Cache blockedUntil
  let blockedUntil ← expire env fds now blockedUntil
  publish args s blockedUntil
  pure { b with blockedUntil := blockedUntil, prevGlobalTokens := s.globalTokens }

/-- One pass of the loop. -/
def tick (now : T) (b : Brain T) : Proc (World T) (Brain T) := do
  let (b, s) ← look env args fds now b
  act env args fds now b s

end Monitor

/-! ## Runs -/

/-- The host: its world, the brain's process if it runs, and the real time of the last boot,
which is where `time.monotonic()` counts from. -/
structure System (T : Type) where
  world : World T
  proc : Option (Brain T)
  boot : T

/-- What happens to the process and its host. -/
inductive SystemAct (T : Type)
  | start
  | tick (now : T)
  | stop
  | reboot (cpus : ℕ) (time : T)

section Runs

variable {T : Type} [Add T] [Sub T] [Zero T] [LE T] [DecidableLE T]
variable (env : ℕ → Interrupt) (args : Args T) (fds : Fds)

/-- One step. A tick without a process, or a start beside one, does nothing. -/
def System.step (s : System T) : SystemAct T → System T
  | .start => match s.proc with
    | none => let (w, b) := start env fds s.world; { s with world := w, proc := b }
    | some _ => s
  | .tick now => match s.proc with
    | none => s
    | some b => let (w, b) := tick env args fds now b s.world; { s with world := w, proc := b }
  | .stop => { s with proc := none }
  | .reboot cpus time =>
    -- the checkpoint file outlives a reboot, the maps do not
    { world := { s.world with kernel := Kernel.init cpus }, proc := none, boot := time }

variable (s₀ : System T) (acts : List (SystemAct T))

/-- The system after the first `n` acts. -/
def sysAt (n : ℕ) : System T := (acts.take n).foldl (System.step env args fds) s₀

@[simp] theorem sysAt_zero : sysAt env args fds s₀ acts 0 = s₀ := by simp [sysAt]

/-- One act more is one step more. -/
theorem sysAt_succ {n : ℕ} (hn : n < acts.length) :
    sysAt env args fds s₀ acts (n + 1) = (sysAt env args fds s₀ acts n).step env args fds acts[n] := by
  simp only [sysAt]
  rw [List.take_add_one, List.getElem?_eq_getElem hn, Option.toList_some, List.foldl_append]
  rfl

end Runs

end FluxGuard
