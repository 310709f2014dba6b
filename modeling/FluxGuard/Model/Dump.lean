import FluxGuard.Data.Chained
import FluxGuard.Model.IpText
import FluxGuard.Model.Run

/-!
# A dump, one system call after the other

`dump_map_u32` and `dump_map_u32_v6` as one machine that stands at a `bpf(2)` call or has ended. The
buffers the calls read and write are locals of their own, the kernel is a `Host`.

* `frozen`: a map that does not change, whose calls may fail.
* `live`: a hash table that others change between the calls.
* `behind`: a map of the filter's kernel, with the rest of the host at work between the calls.
-/

namespace FluxGuard

namespace Dump

/-- What `GET_NEXT_KEY` fails with at the end of a map, and every call on a key that is gone. -/
def ENOENT : ℕ := 2

/-- What the kernel answers: the key or value it writes, or the errno of the failure. -/
structure Host (σ α : Type) where
  getNextKey : Option α → σ → σ × Except ℕ α
  lookupElem : α → σ → σ × Except ℕ UInt32

/-- The local variables of the dump. -/
structure Locals (α : Type) where
  firstKey : α
  currentKey : α
  nextKey : α
  value : UInt32
  res : Dict Text UInt32

/-- Where a dump stands. The first three are the calls it is about to make. -/
inductive State (α : Type)
  | first (l : Locals α)
  | lookup (l : Locals α)
  | next (l : Locals α)
  | returned (res : Dict Text UInt32)
  | raised (errno : ℕ)

section Machine

variable {σ α : Type} (host : Host σ α) (text : α → Text)

/-- One system call, and the Python up to the next one. -/
def step : σ × State α → σ × State α
  | (w, .first l) =>
    let (w, answer) := host.getNextKey none w
    match answer with
    | .ok k =>
      let l := { l with firstKey := k }
      (w, .lookup { l with currentKey := l.firstKey })
    | .error errno => (w, if errno = ENOENT then .returned l.res else .raised errno)
  | (w, .lookup l) =>
    let (w, answer) := host.lookupElem l.currentKey w
    match answer with
    | .ok v =>
      let l := { l with value := v }
      (w, .next { l with res := l.res.set (text l.currentKey) l.value })
    | .error _ => (w, .next l)
  | (w, .next l) =>
    let (w, answer) := host.getNextKey (some l.currentKey) w
    match answer with
    | .ok k =>
      let l := { l with nextKey := k }
      (w, .lookup { l with currentKey := l.nextKey })
    | .error _ => (w, .returned l.res)
  | (w, .returned res) => (w, .returned res)
  | (w, .raised errno) => (w, .raised errno)

/-- The world and the dump after `n` calls. `zero` is the key that a fresh buffer holds. -/
def run (zero : α) (w : σ) (n : ℕ) : σ × State α :=
  (step host text)^[n] (w, .first ⟨zero, zero, zero, 0, Dict.empty⟩)

end Machine

/-- `dump_map_u32`, after `n` system calls. -/
def dumpMapU32 {σ : Type} (host : Host σ Ip4) (w : σ) (n : ℕ) : σ × State Ip4 := run host keyToIp 0 w n

/-- `dump_map_u32_v6`, after `n` system calls. -/
def dumpMapU32V6 {σ : Type} (host : Host σ Ip6) (w : σ) (n : ℕ) : σ × State Ip6 :=
  run host keyToIpV6 (Vector.replicate 16 0) w n

/-! ## Kernels -/

/-- A call that fails with `fail`, or else finds what `found` says. -/
def answer {β : Type} (fail : Option ℕ) (found : Option β) : Except ℕ β :=
  match fail, found with
  | some errno, _ => .error errno
  | none, some b => .ok b
  | none, none => .error ENOENT

section Kernels

variable {α : Type} [DecidableEq α]

/-- A map that does not change; the call after `t` others fails with `fail t`. -/
def frozen (m : Dict α UInt32) (fail : ℕ → Option ℕ) : Host ℕ α where
  getNextKey k t := (t + 1, answer (fail t) (Walk.next m.keys k))
  lookupElem k t := (t + 1, answer (fail t) (m.get? k))

/-- What others do to a hash table. An LRU map evicts by a `remove` of its own choice. -/
inductive Change (α : Type)
  | update (k : α) (v : UInt32)
  | store (k : α) (v : UInt32)
  | remove (k : α)

/-- The kernel rounds the number of buckets up to a power of two. -/
def buckets (cap : ℕ) : ℕ := 2 ^ Nat.clog 2 cap

/-- The bucket of a key. -/
def bucketOf (hash : α → ℕ) (cap : ℕ) (k : α) : ℕ := hash k % buckets cap

/-- A map of at most `cap` entries with its hash function. -/
abbrev HashMap (hash : α → ℕ) (cap : ℕ) : Type := Table α UInt32 (bucketOf hash cap) cap

variable {hash : α → ℕ} {cap : ℕ}

/-- The table after a change. -/
def Change.apply (m : HashMap hash cap) : Change α → HashMap hash cap
  | .update k v => m.update k v
  | .store k v => m.store k v
  | .remove k => m.remove k

/-- A table that others change, and the number of system calls so far. -/
structure Live (hash : α → ℕ) (cap : ℕ) where
  table : HashMap hash cap
  turn : ℕ

/-- The changes of one turn. -/
def Live.advance (changes : ℕ → List (Change α)) (w : Live hash cap) : Live hash cap :=
  ⟨(changes w.turn).foldl Change.apply w.table, w.turn + 1⟩

/-- A hash table that others change: `changes t` happen before the call after `t` others. -/
def live (changes : ℕ → List (Change α)) : Host (Live hash cap) α where
  getNextKey k w := (w.advance changes, answer none (Walk.next (w.advance changes).table.keys k))
  lookupElem k w := (w.advance changes, answer none ((w.advance changes).table.dict.get? k))

/-- What happens at one system call of a dump. -/
structure Turn (α : Type) where
  /-- What the rest of the host does before the call. -/
  events : List Event
  fail : Option ℕ
  /-- The key that a `GET_NEXT_KEY` finds: any, as the map changes. -/
  key : Option α

/-- The kernel behind a dump of one of its maps, and the number of calls so far. -/
def behind (sel : Kernel → Dict α UInt32) (turns : ℕ → Turn α) : Host (Kernel × ℕ) α where
  getNextKey _ w :=
    ((FluxGuard.run w.1 (turns w.2).events, w.2 + 1), answer (turns w.2).fail (turns w.2).key)
  lookupElem k w :=
    let kernel := FluxGuard.run w.1 (turns w.2).events
    ((kernel, w.2 + 1), answer (turns w.2).fail ((sel kernel).get? k))

end Kernels

end Dump

end FluxGuard
