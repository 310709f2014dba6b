import FluxGuard.Data.Bytes
import FluxGuard.Data.Dict
import FluxGuard.Data.Json

/-!
# The configuration file

`FluxGuardConfig` and `load_config`. A configuration is an object of Python: its own attributes
are the entries of its `__dict__`, and a name that is not among them is looked up in its class.
`load_config` assigns the keys of the file's object one by one, as far as they are attributes.

Three names are not stored where the others are: `setattr` hands the value to a descriptor of
the class. What further names the class and `object` give the object depends on the version of
Python, so that they are the argument `other`.
-/

namespace FluxGuard

/-- A Python string from a literal. -/
def pyName (s : String) : PyStr := pyStr s.toList

/-- The fields of `FluxGuardConfig`, in order, with their defaults. -/
def configFields : List (PyStr × Json) :=
  [(pyName "interface", .str (pyName "eth0")),
    (pyName "xdp_mode", .str (pyName "auto")),
    (pyName "bpf_pin_dir", .str (pyName "/sys/fs/bpf/fluxguard")),
    (pyName "kern_pps_limit", .int 1000),
    (pyName "global_pps_limit", .int 500000),
    (pyName "poll_interval", .float (⟨false, 2, -1⟩ : Decimal).toFloat),
    (pyName "cooldown_sec", .int 900),
    (pyName "block_batch_size", .int 256),
    (pyName "allowlist_refresh_sec", .float (⟨false, 50, -1⟩ : Decimal).toFloat),
    (pyName "persistence_file", .str (pyName "/var/lib/fluxguard/blocked_ips.json")),
    (pyName "log_file", .str (pyName "/var/log/fluxguard/fluxguard.log")),
    (pyName "metrics_host", .str (pyName "127.0.0.1")),
    (pyName "metrics_port", .int 9090),
    (pyName "api_host", .str (pyName "127.0.0.1")),
    (pyName "api_port", .int 8080),
    (pyName "api_token", .str []),
    (pyName "drop_protocols", .arr []),
    (pyName "verbose", .bool false),
    (pyName "no_log_ticks", .bool true)]

/-- The names of the fields, in their order. -/
def configNames : List PyStr := configFields.map Prod.fst

/-- A `FluxGuardConfig`: the entries of its `__dict__`. -/
structure FluxGuardConfig where
  dict : Dict PyStr Json

/-- `FluxGuardConfig()`. -/
def FluxGuardConfig.default : FluxGuardConfig := ⟨Dict.ofItems configFields⟩

/-- What the class has under the name of a field: its default, unless that comes from a `default_factory`. -/
def classAttr (key : PyStr) : Option Json :=
  if key = pyName "drop_protocols" then none else (Dict.ofItems configFields).get? key

/-- The names that a descriptor of the class takes. -/
inductive Descriptor
  | cls
  | dict
  | weakref

/-- The attributes that are data descriptors of the class. -/
def descriptor (key : PyStr) : Option Descriptor :=
  if key = pyName "__class__" then some .cls
  else if key = pyName "__dict__" then some .dict
  else if key = pyName "__weakref__" then some .weakref
  else none

/-- The exceptions that `load_config` catches. -/
inductive ConfigError
  | unreadable       -- the file does not open
  | malformed        -- it is no UTF-8, or no JSON
  | noItems          -- its value is no object
  | classAssignment  -- `__class__ must be set to a class`
  | dictAssignment   -- `__dict__ must be set to a dictionary`
  | notWritable      -- `attribute '__weakref__' … is not writable`

namespace FluxGuardConfig

variable (other : PyStr → Bool)

/-- `getattr` of a name that no descriptor takes. -/
def getattr (cfg : FluxGuardConfig) (key : PyStr) : Option Json := (cfg.dict.get? key).or (classAttr key)

/-- `hasattr`: a descriptor, an attribute of the object or its class, or another name that Python finds. -/
def hasattr (cfg : FluxGuardConfig) (key : PyStr) : Bool :=
  (descriptor key).isSome || (cfg.getattr key).isSome || (other key && decide (key ∉ configNames))

/-- `setattr`, with what the descriptors raise. -/
def setattr (cfg : FluxGuardConfig) (key : PyStr) (val : Json) : Except ConfigError FluxGuardConfig :=
  match descriptor key with
  | some .cls => .error .classAssignment
  | some .weakref => .error .notWritable
  | some .dict => match val with
    | .obj members => .ok ⟨Dict.ofItems members⟩
    | _ => .error .dictAssignment
  | none => .ok ⟨cfg.dict.set key val⟩

/-- The loop of `load_config`; an exception ends it, and leaves what it has assigned. -/
def assign (cfg : FluxGuardConfig) : List (PyStr × Json) → FluxGuardConfig × Option ConfigError
  | [] => (cfg, none)
  | (key, val) :: items =>
    if cfg.hasattr other key then
      match cfg.setattr key val with
      | .ok cfg' => cfg'.assign items
      | .error e => (cfg, some e)
    else cfg.assign items

end FluxGuardConfig

/-- The file that `load_config` is given. -/
inductive ConfigFile
  | missing
  | unreadable
  | content (bytes : List UInt8)

/-- `load_config`. With an exception it prints that it is using defaults. -/
def loadConfig (other : PyStr → Bool) : ConfigFile → FluxGuardConfig × Option ConfigError
  | .missing => (.default, none)
  | .unreadable => (.default, some .unreadable)
  | .content bytes =>
    match (decodeUtf8 bytes).bind loads with
    | none => (.default, some .malformed)
    | some (.obj members) => FluxGuardConfig.default.assign other (Dict.ofItems members).items
    | some _ => (.default, some .noItems)

end FluxGuard
