import FluxGuard.Data.JsonValue
import FluxGuard.Model.Checkpoint
import FluxGuard.Model.Config

/-!
# Saving a configuration

`save_config`: the fields of a configuration, as `dataclasses.asdict` copies them, go to the file
in `json.dump`'s layout with `indent=2`. The disk is that of `FluxGuard.Model.Checkpoint`, but
nothing is caught here: an exception leaves `save_config` with the file as it is by then.
-/

namespace FluxGuard

open Proc

mutual

/-- `_asdict_inner` of a value from a file: a copy. The members of an object stand for a dictionary, in
which a later one replaces an earlier one. -/
def asdictInner : Json → Json
  | .arr items => .arr (asdictItems items)
  | .obj members => .obj (Dict.ofItems (asdictMembers members)).items
  | .null => .null
  | .bool b => .bool b
  | .int z => .int z
  | .float x => .float x
  | .str s => .str s

/-- `_asdict_inner` of the items of a list. -/
def asdictItems : List Json → List Json
  | [] => []
  | v :: vs => asdictInner v :: asdictItems vs

/-- `_asdict_inner` of the values of a dict. -/
def asdictMembers : List (PyStr × Json) → List (PyStr × Json)
  | [] => []
  | (k, v) :: ms => (k, asdictInner v) :: asdictMembers ms

end

namespace FluxGuardConfig

/-- The names in `dataclasses.fields(cfg)`. An attribute of the object's own hides the fields of its class; then
an object without members has none, and no other value from a file can be asked for them. -/
def fields (cfg : FluxGuardConfig) : Option (List PyStr) :=
  match cfg.dict.get? (pyName "__dataclass_fields__") with
  | none => some configNames
  | some (.obj []) => some []
  | some _ => none

/-- `asdict(cfg)`; `none` is an `AttributeError`. -/
def asdict (cfg : FluxGuardConfig) : Option (Dict PyStr Json) := do
  let names ← cfg.fields
  let items ← names.mapM fun key => (cfg.getattr key).map fun val => (key, asdictInner val)
  some (Dict.ofItems items)

end FluxGuardConfig

/-- The bytes of a file with these fields. -/
def configBytes (d : Dict PyStr Json) : List UInt8 := encodeUtf8 (dumps (.indented 2) (.obj d.items))

open Checkpoint in

/-- `save_config`: the file is opened, and so emptied, before the fields are read. -/
def saveConfig (disk : Disk) (cfg : FluxGuardConfig) : Proc File Unit :=
  match disk.makedirs, disk.openFile with
  | .ok, .ok => do
    -- the file is empty before the fields are looked up
    Proc.modify fun _ => some []
    match cfg.asdict with
    | none => do
      close disk.close [] true
      Proc.abort
    | some d => do
      let (left, raised) ← dump disk.writes (configBytes d)
      close disk.close left raised
      if raised = true ∨ disk.close.outcome = .error then Proc.abort else pure ()
  | _, _ => Proc.abort

/-- A disk that does its work, in pieces of any size. -/
def Checkpoint.Disk.working (writes : List ℕ) : Checkpoint.Disk := ⟨.ok, .ok, writes.map (⟨·, .ok⟩), ⟨0, .ok⟩⟩

/-- A file of these bytes, as `load_config` finds it. -/
def ConfigFile.ofBytes : Checkpoint.File → ConfigFile
  | none => .missing
  | some bytes => .content bytes

end FluxGuard
