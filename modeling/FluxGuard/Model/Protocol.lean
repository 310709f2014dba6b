import FluxGuard.Model.View

/-!
# Protocol rules

`set_proto_filter` and its call for `--drop-proto`, and the protocol of an IPv6 packet as a
receiver finds it: behind any number of extension headers. The filter itself reads `nexthdr`
of the fixed header only.
-/

namespace FluxGuard

/-! ## Rules from userspace -/

/-- `set_proto_filter`. Assigning to a field of fixed width keeps the low bits; `false` is an `OSError`
of the system call. -/
def setProtoFilter (k : Kernel) (proto action : ℤ) : Kernel × Bool :=
  match k.protoFilterMap.updateElem (UInt8.ofInt proto) (UInt32.ofInt action) with
  | some m => ({ k with protoFilterMap := m }, true)
  | none => (k, false)

/-- What `monitor` prints about the rule. -/
inductive RuleLine
  | set (proto : ℤ)
  | warning
deriving DecidableEq

/-- The rule of `--drop-proto`, if it is given. `opened` is whether `proto_filter_map` could be opened. -/
def applyDropProto (opened : Bool) (k : Kernel) : Option ℤ → Kernel × Option RuleLine
  | none => (k, none)
  | some proto =>
    if opened then
      let (k', ok) := setProtoFilter k proto 1
      (k', some (if ok then .set proto else .warning))
    else (k, some .warning)

/-- The protocol numbers that the kernel drops. -/
def Kernel.dropped (k : Kernel) : Set ℤ := {n | ∃ p : UInt8, k.filters p = true ∧ (p.toNat : ℤ) = n}

/-! ## Extension headers -/

/-- Hop-by-Hop Options, Routing, Fragment and Destination Options. -/
def isExtension (p : UInt8) : Bool := p == 0 || p == 43 || p == 44 || p == 60

/-- The length of the extension header of this kind at an offset. A Fragment header has no length field. -/
def extensionLength (data : List UInt8) (kind : UInt8) (i : ℕ) : ℕ :=
  if kind = 44 then 8 else 8 * ((byteAt data (i + 1)).toNat + 1)

/-- The header chain that goes on with a header of this kind at offset `i` ends in the upper-layer
protocol `p`, and its extension headers are complete. -/
inductive EndsIn (data : List UInt8) : UInt8 → ℕ → UInt8 → Prop
  | upper {p : UInt8} {i : ℕ} (h : isExtension p = false) : EndsIn data p i p
  | extension {kind p : UInt8} {i : ℕ} (h : isExtension kind = true)
      (fits : i + extensionLength data kind i ≤ data.length)
      (rest : EndsIn data (byteAt data i) (i + extensionLength data kind i) p) : EndsIn data kind i p

end FluxGuard
