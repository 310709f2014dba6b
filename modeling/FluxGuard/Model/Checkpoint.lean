import FluxGuard.Data.Bytes
import FluxGuard.Data.Json
import FluxGuard.Model.World

/-!
# The checkpoint file

`save_checkpoint` and `load_checkpoint` down to the bytes on disk. The file is truncated
when it is opened; the bytes reach it in any number of pieces. A call can fail, which
`save_checkpoint` swallows, and the process can be killed at any of them.
-/

namespace FluxGuard.Checkpoint

open Proc

/-- The bytes of the file, if there is one. -/
abbrev File := Option (List UInt8)

/-! ## Loading -/

section Load

variable (ofStr : PyStr → Option PyFloat)

/-- `float(ts)` of a value from the file; an exception is `none`. What `float` makes of a
string does not matter here. -/
def pyFloat : Json → Option PyFloat
  | .float x => some x
  | .int z =>
    match PyFloat.round (z < 0) z.natAbs 1 with
    -- an integer too large for a float is an `OverflowError`
    | .inf _ => none
    | x => some x
  | .bool b => some (PyFloat.round false b.toNat 1)
  | .str s => ofStr s
  | .null => none
  | .arr _ => none
  | .obj _ => none

/-- `{ip: float(ts) for ip, ts in data.items()}`. -/
def readBlocks : Json → Option (Dict PyStr PyFloat)
  | .obj members =>
    ((Dict.ofItems members).items.mapM fun m => (pyFloat ofStr m.2).map fun x => (m.1, x)).map Dict.ofItems
  | _ => none

/-- `load_checkpoint`: what cannot be read, decoded or converted is an empty dict. -/
def loadCheckpoint : File → Dict PyStr PyFloat
  | none => Dict.empty
  | some bytes => (((decodeUtf8 bytes).bind loads).bind (readBlocks ofStr)).getD Dict.empty

end Load

/-! ## Saving -/

/-- One write to the file: how many of the bytes that are left get to the disk, and what
comes of it. -/
structure Write where
  count : ℕ
  outcome : Outcome

/-- What happens to the calls of one `save_checkpoint`. -/
structure Disk where
  makedirs : Outcome
  openFile : Outcome
  writes : List Write
  close : Write

/-- Bytes that get to the end of the file. -/
def append (bytes : List UInt8) : Proc File Unit := Proc.modify fun f => some (f.getD [] ++ bytes)

/-- `json.dump`: the bytes that stay in the buffer, and whether it raised. -/
def dump : List Write → List UInt8 → Proc File (List UInt8 × Bool)
  | [], left => pure (left, false)
  | w :: ws, left => do
    append (left.take w.count)
    match w.outcome with
    | .ok => dump ws (left.drop w.count)
    | .error => pure (left.drop w.count, true)
    | .kill => Proc.abort

/-- The end of the `with` block. Bytes can be lost after an error. -/
def close (w : Write) (left : List UInt8) (raised : Bool) : Proc File Unit :=
  match w.outcome with
  | .ok => append (if raised then left.take w.count else left)
  | .error => append (left.take w.count)
  | .kill => do
    append (left.take w.count)
    Proc.abort

/-- `save_checkpoint`: the open empties the file, and every step can fail or be cut off. -/
def saveCheckpoint (disk : Disk) (blockedUntil : Dict PyStr PyFloat) : Proc File Unit :=
  match disk.makedirs with
  | .kill => Proc.abort
  | .error => pure ()
  | .ok =>
    match disk.openFile with
    | .kill => Proc.abort
    | .error => pure ()
    | .ok => do
      -- opened for writing, the file is empty
      Proc.modify fun _ => some []
      let (left, raised) ← dump disk.writes (encodeUtf8 (dumpsItems blockedUntil.items))
      close disk.close left raised

end FluxGuard.Checkpoint
