import FluxGuard.Data.Proc
import FluxGuard.Model.IpText
import FluxGuard.Model.View

/-!
# The brain's world

What the brain works on: the kernel's maps behind the system calls of `fluxguard_bpf.py`,
the checkpoint file, the metrics and the log. The rest of the host acts between the
system calls: an `Interrupt` says what happens around one of them. The kernel runs the
filter on frames, other tools change the maps, a call can fail, and the process can be
killed.
-/

namespace FluxGuard

/-- `MetricsState`. -/
structure MetricsState where
  packetsByIp : Dict Text ℕ
  blockedIpsSet : List Text
  blockedIps : ℕ
  blockEvents : ℕ
  unblockEvents : ℕ
  globalPpsExceeded : ℕ

namespace MetricsState

/-- `MetricsState()`. -/
def init : MetricsState := ⟨Dict.empty, [], 0, 0, 0, 0⟩

/-- `update_snapshot`. -/
def updateSnapshot (m : MetricsState) (packetsByIp : Dict Text ℕ) (blockedIps : ℕ) : MetricsState :=
  { m with packetsByIp := packetsByIp, blockedIps := blockedIps }

/-- `update_blocked_set`. -/
def updateBlockedSet (m : MetricsState) (blockedSet : List Text) : MetricsState :=
  { m with blockedIpsSet := blockedSet }

/-- `inc_block_events`. -/
def incBlockEvents (m : MetricsState) : MetricsState := { m with blockEvents := m.blockEvents + 1 }

/-- `inc_unblock_events`. -/
def incUnblockEvents (m : MetricsState) : MetricsState := { m with unblockEvents := m.unblockEvents + 1 }

/-- `inc_global_pps_exceeded`. -/
def incGlobalPpsExceeded (m : MetricsState) : MetricsState :=
  { m with globalPpsExceeded := m.globalPpsExceeded + 1 }

end MetricsState

/-- A line of the JSON log, without its time. -/
inductive LogLine
  | shieldsUp (globalTokens : ℤ)
  | autoBlock (ip : Text) (blockedCount : ℤ)
  | unblock (ip : Text) (blockedCount : ℤ)
  | tick (observedIps blockedCount : ℕ) (globalTokens : ℤ)

/-- What a delete from a blacklist map came to. The last two are an `OSError`. -/
inductive Deletion
  | removed
  | absent
  | failed
deriving DecidableEq

/-- The host around the brain: the kernel's maps, the checkpoint file, the metrics and the log. -/
structure World (T : Type) where
  kernel : Kernel
  /-- What `load_checkpoint` reads in the checkpoint file; `none` where there is no file, or a torn one. -/
  file : Option (Dict Text T)
  metrics : MetricsState
  log : List LogLine
  /-- The deletes from the blacklist maps so far. -/
  deletes : List (Source × Deletion)
  /-- The number of system calls so far. -/
  turn : ℕ

/-! ## System calls -/

/-- What becomes of a system call. A kill ends the process in the middle of it. -/
inductive Outcome
  | ok
  | error
  | kill
deriving DecidableEq

/-- The brain's system calls, by what they are for. -/
inductive Call
  | dump
  | tokens
  | set
  | delete
  | save
  | load

/-- What a save that fails or is killed leaves of the checkpoint file. -/
inductive Remains
  /-- It was not opened. -/
  | old
  /-- It was truncated, and not all of the new content was written. -/
  | torn
  /-- All of the new content was written. -/
  | new
deriving DecidableEq

/-- What `load_checkpoint` reads then. -/
def Remains.file {α : Type} (r : Remains) (before after : Option α) : Option α :=
  match r with
  | .old => before
  | .torn => none
  | .new => after

/-- What happens around one system call. -/
structure Interrupt where
  /-- What the rest of the host does before the call. -/
  events : List Event
  outcome : Call → Outcome
  /-- The keys that `GET_NEXT_KEY` returns to a dump, each with what the rest of the host
  does before that key is looked up. -/
  keys : List (List Event × Ip4)
  keysV6 : List (List Event × Ip6)
  /-- What is left of the checkpoint file if the call is a save that does not go through. -/
  remains : Remains

/-- The address text of a source. -/
def Source.text : Source → Text
  | .v4 a => keyToIp a
  | .v6 a => keyToIpV6 a

/-- The event that takes a source from its blacklist. -/
def unblacklist : Source → Event
  | .v4 a => .v4 (.unblacklist a)
  | .v6 a => .v6 (.unblacklist a)

section Calls

variable {T : Type} (env : ℕ → Interrupt)

/-- A system call: `true` when it succeeds, `false` for an `OSError`. -/
def syscall (c : Call) : Proc (World T) Bool := fun w =>
  let w' := { w with kernel := run w.kernel (env w.turn).events, turn := w.turn + 1 }
  -- the rest of the host acts before the call is answered
  match (env w.turn).outcome c with
  | .ok => (w', some true)
  | .error => (w', some false)
  | .kill => (w', none)

/-- One lookup of a dump, after what others do before it; a key that is gone is skipped. -/
def lookup {α : Type} [DecidableEq α] (text : α → Text) (sel : Kernel → Dict α UInt32)
    (p : Kernel × Dict Text UInt32) (key : List Event × α) : Kernel × Dict Text UInt32 :=
  let k := run p.1 key.1
  (k, match (sel k).get? key.2 with
    | some v => p.2.set (text key.2) v
    | none => p.2)

/-- A dump of a map; `none` is an `OSError`. -/
def dumpMap {α : Type} [DecidableEq α] (text : α → Text) (keys : Interrupt → List (List Event × α))
    (sel : Kernel → Dict α UInt32) : Proc (World T) (Option (Dict Text UInt32)) := do
  let w ← Proc.get
  if ← syscall env .dump then
    let w' ← Proc.get
    let (kernel, res) := (keys (env w.turn)).foldl (lookup text sel) (w'.kernel, Dict.empty)
    Proc.modify fun w => { w with kernel := kernel }
    pure (some res)
  else pure none

/-- `dump_map_u32`; `none` for an `OSError`. -/
def dumpMapU32 (sel : Kernel → Dict Ip4 UInt32) : Proc (World T) (Option (Dict Text UInt32)) :=
  dumpMap env keyToIp Interrupt.keys sel

/-- `dump_map_u32_v6`; `none` for an `OSError`. -/
def dumpMapU32V6 (sel : Kernel → Dict Ip6 UInt32) : Proc (World T) (Option (Dict Text UInt32)) :=
  dumpMap env keyToIpV6 Interrupt.keysV6 sel

/-- `get_global_tokens`, which answers a failed lookup with 0. -/
def getGlobalTokens : Proc (World T) ℤ := do
  if ← syscall env .tokens then
    let w ← Proc.get
    -- the level is a signed word
    pure w.kernel.globalRateMap.tokens.toInt
  else pure 0

/-- `set_map_u32` on the blacklist; a text that is no address ends the program with a `ValueError`. -/
def setMapU32 (ip : Text) (v : UInt32) : Proc (World T) Unit :=
  match ipToKey ip with
  | none => Proc.abort
  | some a => do
    if ← syscall env .set then
      Proc.modify fun w => { w with kernel := w.kernel.step (.v4 (.blacklist a v)) }

/-- `set_map_u32_v6` on the IPv6 blacklist. -/
def setMapU32V6 (ip : Text) (v : UInt32) : Proc (World T) Unit :=
  match ipToKeyV6 ip with
  | none => Proc.abort
  | some a => do
    if ← syscall env .set then
      Proc.modify fun w => { w with kernel := w.kernel.step (.v6 (.blacklist a v)) }

/-- What a delete of a source finds. -/
def Kernel.deletion (k : Kernel) (s : Source) : Deletion := if (k.view s).listed then .removed else .absent

/-- A delete system call on a blacklist map; `true` when it removed an entry. -/
def deleteElem (s : Source) : Proc (World T) Bool := do
  if ← syscall env .delete then
    let w ← Proc.get
    let d := w.kernel.deletion s
    Proc.modify fun w => { w with kernel := w.kernel.step (unblacklist s), deletes := w.deletes ++ [(s, d)] }
    -- a key that was not there is an `ENOENT`
    pure (decide (d = .removed))
  else
    Proc.modify fun w => { w with deletes := w.deletes ++ [(s, .failed)] }
    pure false

/-- `del_map_u32` on the blacklist. -/
def delMapU32 (ip : Text) : Proc (World T) Bool :=
  match ipToKey ip with
  | none => Proc.abort
  | some a => deleteElem env (.v4 a)

/-- `del_map_u32_v6` on the IPv6 blacklist; whether it went through. -/
def delMapU32V6 (ip : Text) : Proc (World T) Bool :=
  match ipToKeyV6 ip with
  | none => Proc.abort
  | some a => deleteElem env (.v6 a)

/-- `save_checkpoint`, which swallows a failure. The file is opened for writing, and so truncated, before
the new content is in it. -/
def saveCheckpoint (blockedUntil : Dict Text T) : Proc (World T) Unit := do
  Proc.modify fun w => { w with file := (env w.turn).remains.file w.file (some blockedUntil) }
  if ← syscall env .save then
    Proc.modify fun w => { w with file := some blockedUntil }

/-- `load_checkpoint`, which answers a failure with no blocks. -/
def loadCheckpoint : Proc (World T) (Dict Text T) := do
  if ← syscall env .load then
    let w ← Proc.get
    pure (w.file.getD Dict.empty)
  else pure Dict.empty

end Calls

end FluxGuard
