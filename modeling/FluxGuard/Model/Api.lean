import FluxGuard.Model.Allowlist

/-!
# The REST API

`fluxguard_api.py` around its handler `allowlist`: the maps opened at import, the check of the
token before every request, and the handlers `blocked`, `metrics_proxy` and `health`.

A dump of `blocked` is made of system calls; others change the maps between them.
-/

namespace FluxGuard.Api

/-- What the module has after its import. -/
structure Server where
  pin : PyStr
  apiToken : PyStr
  allowlistFd : Option ℕ
  allowlistV6Fd : Option ℕ
  blacklistFd : Option ℕ
  blacklistV6Fd : Option ℕ

/-- `rstrip("/")`. -/
def rstripSlash (path : PyStr) : PyStr := path.rdropWhile fun c => decide (c = .ofChar '/')

/-- The import. `tryOpen` is `_try_open`: the descriptor of a pinned map, or `None` for an `OSError`. -/
def start (bpfPinDir apiToken : PyStr) (tryOpen : PyStr → Option ℕ) : Server :=
  let pin := rstripSlash bpfPinDir
  { pin, apiToken
    allowlistFd := tryOpen (pin ++ pyStr "/allowlist_map".toList)
    allowlistV6Fd := tryOpen (pin ++ pyStr "/allowlist_map_v6".toList)
    blacklistFd := tryOpen (pin ++ pyStr "/blacklist_map".toList)
    blacklistV6Fd := tryOpen (pin ++ pyStr "/blacklist_map_v6".toList) }

/-- The routes, with the method and the body where the handler looks at them. -/
inductive Endpoint
  | allowlist (method : Allowlist.Method) (body : Option Json)
  | blocked
  | metrics
  | health

/-- A request, with its header `Authorization`. -/
structure Request where
  authorization : Option PyStr
  endpoint : Endpoint

/-- What a request is answered with. -/
inductive Answer
  | allowlist (r : Allowlist.Response)
  | lists (ipv4 ipv6 : List Text)
  | page (body : List UInt8) (status : ℕ) (contentType : PyStr)
  | health (pinDir : PyStr) (maps : List (Text × Bool))
  | abort (status : ℕ) (description : PyStr)
  /-- To an exception that no handler catches. -/
  | internalError

/-- What happens around a request. -/
structure Around where
  /-- The failures of the allowlist's calls, as in `Allowlist.Env`. -/
  fail : Option ℕ
  failV4 : ℕ → Option ℕ
  failV6 : ℕ → Option ℕ
  /-- The system calls of the two dumps of the blacklists. -/
  turns : ℕ → Dump.Turn Ip4
  turnsV6 : ℕ → Dump.Turn Ip6
  /-- How many of them have been made. -/
  calls : ℕ
  callsV6 : ℕ
  /-- What the exporter answers, with its `Content-Type`, or the text of the exception. -/
  upstream : Except PyStr (List UInt8 × ℕ × Option PyStr)

/-- The part of it that the handler `allowlist` meets. -/
def Around.env (x : Around) (api : Server) : Allowlist.Env :=
  ⟨api.allowlistFd, api.allowlistV6Fd, x.fail, x.failV4, x.failV6⟩

/-! ## The check before every request -/

/-- `_check_auth`. -/
def checkAuth (token : PyStr) (authorization : Option PyStr) : Bool :=
  if token = [] then true else decide (authorization.getD [] = pyStr "Bearer ".toList ++ token)

/-! ## Handlers -/

/-- The 503 of `_require`. -/
def unavailable (api : Server) (name : String) : Answer :=
  .abort 503 (pyStr ("BPF map '".toList ++ name.toList ++ "' not available at ".toList) ++ api.pin ++
    pyStr " (is FluxGuard loaded?)".toList)

/-- The handler `blocked`; no answer as long as its dumps have not ended. -/
def blocked (api : Server) (x : Around) (k : Kernel) : Kernel × Option Answer :=
  match api.blacklistFd with
  | none => (k, some (unavailable api "blacklist_map"))
  | some _ =>
    match Dump.dumpMapU32 (Dump.behind (fun k => k.v4.blacklistMap.entries) x.turns) (k, 0) x.calls with
    | ((k, _), .returned v4) =>
      if opened api.blacklistV6Fd then
        match Dump.dumpMapU32V6 (Dump.behind (fun k => k.v6.blacklistMap.entries) x.turnsV6) (k, 0) x.callsV6 with
        | ((k, _), .returned v6) => (k, some (.lists (sortedSet v4.keys) (sortedSet v6.keys)))
        | ((k, _), .raised _) => (k, some .internalError)
        | ((k, _), _) => (k, none)
      else (k, some (.lists (sortedSet v4.keys) []))
    | ((k, _), .raised _) => (k, some .internalError)
    | ((k, _), _) => (k, none)

/-- The handler `health`: which maps could be opened. -/
def health (api : Server) : Answer :=
  .health api.pin
    [("allowlist_map".toList, api.allowlistFd.isSome), ("allowlist_map_v6".toList, api.allowlistV6Fd.isSome),
      ("blacklist_map".toList, api.blacklistFd.isSome), ("blacklist_map_v6".toList, api.blacklistV6Fd.isSome)]

end FluxGuard.Api
