import FluxGuard.Data.Writes
import FluxGuard.Model.Allowlist
import FluxGuard.Proof.Dump
import FluxGuard.Proof.World

/-!
# The allowlist is a set

The API and the command line name an address in many ways, decide its family each in its own
way, and write to one of two maps. Together they implement one set.

* `ipv6Address_canonicalV6`: the canonical text names the same address.
* `serve_spec`: a request that succeeds writes its own address, and one that does not changes
  nothing.
* `allowlisted_served`: after any requests the maps hold the addresses whose last write put them in.
* `implements_iff`: and GET and `list` show them, except for an IPv6 map on descriptor 0.
* `unprintable_del`: a zone that cannot be printed fails after the map has changed.
-/

namespace FluxGuard.Allowlist

/-! ## Addresses -/

theorem readable_pyStr (t : Text) : readable (pyStr t) = t := by
  unfold readable pyStr
  rw [List.map_map]
  refine (List.map_congr_left fun c _ => ?_).trans (List.map_id t)
  exact Char.ofNat_toNat c

theorem readable_append (s t : PyStr) : readable (s ++ t) = readable s ++ readable t := List.map_append

/-- The parsers see a `%` where there is one. -/
theorem ofNat_eq_percent (c : CodePoint) : Char.ofNat c.val = '%' ↔ c = percent := by
  constructor
  · intro h
    have hval := congrArg Char.toNat h
    by_cases hvalid : c.val.isValidChar
    · rw [Char.toNat_ofNat, if_pos hvalid] at hval
      exact Fin.ext hval
    · rw [Char.toNat_ofNat, if_neg hvalid] at hval
      cases hval
  · rintro rfl
    rfl

theorem mem_readable_percent {s : PyStr} : '%' ∈ readable s ↔ percent ∈ s := by
  unfold readable
  rw [List.mem_map]
  constructor
  · rintro ⟨c, hc, heq⟩
    rwa [← (ofNat_eq_percent c).1 heq]
  · intro h
    exact ⟨percent, h, rfl⟩

/-- The zone separator stands where it stood. -/
theorem idxOf_readable (s : PyStr) : (readable s).idxOf '%' = s.idxOf percent := by
  unfold readable
  induction s with
  | nil => rfl
  | cons c s ih =>
    rw [List.map_cons, List.idxOf_cons, List.idxOf_cons, ih]
    have heq : (Char.ofNat c.val == '%') = (c == percent) := by
      rw [Bool.eq_iff_iff, beq_iff_eq, beq_iff_eq]
      exact ofNat_eq_percent c
    rw [heq]

theorem readable_drop (s : PyStr) (n : ℕ) : readable (s.drop n) = (readable s).drop n := List.map_drop

/-- **A canonical text names the same address.** -/
theorem ipv6Address_canonicalV6 {ip : Json} {canon : PyStr} (h : canonicalV6 ip = some canon) :
    ipv6Address (.str canon) = ipv6Address ip := by
  obtain ⟨a, ha, rfl⟩ := Option.map_eq_some_iff.1 h
  rw [ha]
  show ipToKeyV6 (readable (pyStr (keyToIpV6 a) ++ zone ip)) = some a
  rw [readable_append, readable_pyStr]
  cases ip with
  | str s =>
    by_cases hpercent : percent ∈ s
    · rw [show zone (.str s) = s.drop (s.idxOf percent) from if_pos hpercent]
      -- the zone of a text that is read is neither empty nor ambiguous
      have hread : ipToKeyV6 (readable s) = some a := ha
      have hmem := mem_readable_percent.2 hpercent
      have hdrop : readable (s.drop (s.idxOf percent)) =
          '%' :: (readable s).drop ((readable s).idxOf '%' + 1) := by
        have hlt := List.idxOf_lt_length_of_mem hmem
        rw [readable_drop, ← idxOf_readable, List.drop_eq_getElem_cons hlt, List.getElem_idxOf]
      unfold ipToKeyV6 ipv6Packed splitScopeId at hread
      rw [if_pos hmem] at hread
      obtain ⟨bytes, hbytes, -⟩ := Option.map_eq_some_iff.1 hread
      split at hbytes
      · cases hbytes
      · rename_i hslash
        dsimp only at hbytes
        split at hbytes
        · cases hbytes
        · rename_i hscope
          rw [not_or] at hscope
          rw [hdrop]
          exact ipToKeyV6_scoped a hscope.1 hscope.2 fun hm => hslash (List.mem_of_mem_drop hm)
    · rw [show zone (.str s) = [] from if_neg hpercent, show readable [] = [] from rfl, List.append_nil]
      exact ipToKeyV6_keyToIpV6 a
  | null | bool b | int z | float x | arr items | obj members =>
    rw [show readable (zone _) = [] from rfl, List.append_nil]
    exact ipToKeyV6_keyToIpV6 a

/-- No string is an address of both families. -/
theorem ipv4Address_of_v6 {s : PyStr} {a : Ip6} (h : ipv6Address (.str s) = some a) : ipv4Address (.str s) = none :=
  ipToKey_of_colon (colon_of_ipToKeyV6 (show ipToKeyV6 (readable s) = some a from h))

/-- `ip_address` tries IPv4 first. -/
theorem ipAddress_v4 {ip : Json} {a : Ip4} : ipAddress ip = some (.v4 a) ↔ ipv4Address ip = some a := by
  unfold ipAddress
  cases ipv4Address ip with
  | some a' => simp
  | none => simp

/-- IPv6 is what it tries second. -/
theorem ipAddress_v6 {ip : Json} {a : Ip6} :
    ipAddress ip = some (.v6 a) ↔ ipv4Address ip = none ∧ ipv6Address ip = some a := by
  unfold ipAddress
  cases ipv4Address ip with
  | some a' => simp
  | none => simp

/-! ## Writes -/

/-- The union of the two allowlists. -/
def allowlisted (k : Kernel) : Set Source :=
  { s | match s with
    | .v4 a => a ∈ k.v4.allowlistMap
    | .v6 a => a ∈ k.v6.allowlistMap }

/-- The kernel has put `s` on its allowlist, or taken it off, and done nothing else. -/
structure Wrote (k k' : Kernel) (s : Source) (b : Bool) : Prop where
  allowlisted : ∀ s', s' ∈ allowlisted k' ↔ if s = s' then b = true else s' ∈ allowlisted k
  /-- A write of one family leaves the other as it is. -/
  family : (∀ a, s ≠ .v4 a) ∧ k'.v4 = k.v4 ∨ (∀ a, s ≠ .v6 a) ∧ k'.v6 = k.v6

section Maps

variable {α : Type} [DecidableEq α] {n m : ℕ} {fail : Option ℕ} {maps maps' : IpMaps α n m} {a a' : α}

/-- An update that did not fail has put the key on the map, and no other. -/
theorem updateElem_ok {v : UInt32} (h : updateElem fail maps a v = .ok maps') :
    a' ∈ maps'.allowlistMap ↔ if a = a' then true = true else a' ∈ maps.allowlistMap := by
  unfold updateElem at h
  split at h
  · cases h
  · rename_i list hlist
    cases h
    unfold BpfHash.updateElem at hlist
    have hentries : list.entries = maps.allowlistMap.entries.set a v := by
      split at hlist
      · cases hlist
        rfl
      · split at hlist
        · cases hlist
          rfl
        · cases hlist
    rw [BpfHash.mem_iff]
    dsimp only
    rw [hentries, Dict.mem_set]
    by_cases heq : a = a'
    · simp [heq]
    · rw [if_neg heq, or_iff_right (Ne.symm heq)]
      rfl
  · cases h

/-- A delete that did not fail has taken the key off the map, and no other. -/
theorem deleteElem_ok (h : deleteElem fail maps a = .ok maps') :
    a' ∈ maps'.allowlistMap ↔ if a = a' then false = true else a' ∈ maps.allowlistMap := by
  unfold deleteElem at h
  split at h
  · cases h
  · rename_i list hlist
    cases h
    unfold BpfHash.deleteElem at hlist
    split at hlist
    · cases hlist
      show a' ∈ maps.allowlistMap.entries.erase a ↔ _
      rw [Dict.mem_erase]
      by_cases heq : a = a'
      · simp [heq]
      · rw [if_neg heq, and_iff_right (Ne.symm heq)]
        rfl
    · cases hlist
  · cases h

end Maps

variable {fail : Option ℕ} {k k' : Kernel} {ip : Json}

/-- A write to the IPv4 maps. -/
theorem wrote_v4 {maps : IpMaps Ip4 MAX_ENTRIES 1024} {a : Ip4} {b : Bool}
    (h : ∀ a', a' ∈ maps.allowlistMap ↔ if a = a' then b = true else a' ∈ k.v4.allowlistMap) :
    Wrote k { k with v4 := maps } (.v4 a) b where
  allowlisted s' := by
    cases s' with
    | v4 a' =>
      simp only [Source.v4.injEq]
      exact h a'
    | v6 a' => exact Iff.rfl
  family := Or.inr ⟨fun _ h => (nomatch h), rfl⟩

theorem wrote_v6 {maps : IpMaps Ip6 MAX_ENTRIES_V6 256} {a : Ip6} {b : Bool}
    (h : ∀ a', a' ∈ maps.allowlistMap ↔ if a = a' then b = true else a' ∈ k.v6.allowlistMap) :
    Wrote k { k with v6 := maps } (.v6 a) b where
  allowlisted s' := by
    cases s' with
    | v4 a' => exact Iff.rfl
    | v6 a' =>
      simp only [Source.v6.injEq]
      exact h a'
  family := Or.inl ⟨fun _ h => (nomatch h), rfl⟩

theorem map_ok {γ : Type} {x : Except Exc γ} {f : γ → Kernel} (h : x.map f = .ok k') :
    ∃ maps, x = .ok maps ∧ f maps = k' := by
  cases x with
  | error exc => cases h
  | ok maps =>
    cases h
    exact ⟨maps, rfl, rfl⟩

/-- What a successful IPv4 set writes. -/
theorem setMapU32_ok {v : UInt32} {a : Ip4} (ha : ipv4Address ip = some a) (h : setMapU32 fail k ip v = .ok k') :
    Wrote k k' (.v4 a) true := by
  unfold setMapU32 at h
  rw [ha] at h
  obtain ⟨maps, hmaps, rfl⟩ := map_ok h
  exact wrote_v4 fun a' => updateElem_ok hmaps

/-- What a successful IPv6 set writes. -/
theorem setMapU32V6_ok {v : UInt32} {a : Ip6} (ha : ipv6Address ip = some a) (h : setMapU32V6 fail k ip v = .ok k') :
    Wrote k k' (.v6 a) true := by
  unfold setMapU32V6 at h
  rw [ha] at h
  obtain ⟨maps, hmaps, rfl⟩ := map_ok h
  exact wrote_v6 fun a' => updateElem_ok hmaps

/-- What a successful IPv4 delete writes. -/
theorem delMapU32_ok {a : Ip4} (ha : ipv4Address ip = some a) (h : delMapU32 fail k ip = .ok k') :
    Wrote k k' (.v4 a) false := by
  unfold delMapU32 at h
  rw [ha] at h
  obtain ⟨maps, hmaps, rfl⟩ := map_ok h
  exact wrote_v4 fun a' => deleteElem_ok hmaps

/-- What a successful IPv6 delete writes. -/
theorem delMapU32V6_ok {a : Ip6} (ha : ipv6Address ip = some a) (h : delMapU32V6 fail k ip = .ok k') :
    Wrote k k' (.v6 a) false := by
  unfold delMapU32V6 at h
  rw [ha] at h
  obtain ⟨maps, hmaps, rfl⟩ := map_ok h
  exact wrote_v6 fun a' => deleteElem_ok hmaps

/-- Text that is no address is refused. -/
theorem setMapU32_none {v : UInt32} (ha : ipv4Address ip = none) : setMapU32 fail k ip v = .error .value := by
  unfold setMapU32
  rw [ha]

/-- A text that is no address is refused before the map is touched. -/
theorem delMapU32_none (ha : ipv4Address ip = none) : delMapU32 fail k ip = .error .value := by
  unfold delMapU32
  rw [ha]

/-! ## One request -/

/-- What a request has come to: it has written its address, or changed nothing and not written. -/
def Served (r : Request) (k : Kernel) (result : Kernel × Bool) : Prop :=
  (result.2 = true ∧ ∃ s b, r.address = some s ∧ r.adds = some b ∧ Wrote k result.1 s b) ∨
    result.1 = k ∧ (result.2 = false ∨ r.adds = none)

/-- A line that an operation on an address prints can be printed. -/
def Request.Prints : Request → Prop
  | .api _ => True
  | .cli action ip => action ≠ .list → ∀ s, ip = some s → (ipAddress (.str s)).isSome = true → printable s = true

/-- A request that is refused and changes nothing is served as it should be. -/
theorem served_unchanged {r : Request} : Served r k (k, false) := Or.inr ⟨rfl, Or.inl rfl⟩

/-- What `serve` takes from an answer of the API. -/
def judged (answer : Kernel × Response) : Kernel × Bool :=
  (answer.1, decide (answer.2.status = 200 ∨ answer.2.status = 201))

/-- An answer with a status of success is one to a write that went through. -/
theorem reply_spec {r : ApiRequest} {result : Except Exc Kernel} {done : Response} {s : Source} {b : Bool}
    (hdone : done.status = 200 ∨ done.status = 201) (haddr : (Request.api r).address = some s)
    (hadds : (Request.api r).adds = some b) (hok : ∀ k', result = .ok k' → Wrote k k' s b) :
    Served (.api r) k (judged (reply k result done)) := by
  cases result with
  | error exc => exact served_unchanged
  | ok k' => exact Or.inl ⟨decide_eq_true hdone, s, b, haddr, hadds, hok k' rfl⟩

theorem adds_api {r : ApiRequest} (hget : r.method ≠ .get) :
    (Request.api r).adds = some (decide (r.method = .post)) := by
  cases hmethod : r.method with
  | get => exact absurd hmethod hget
  | post | delete => simp [Request.adds, hmethod]

/-- The two operations of the API on one map. -/
theorem post_or_delete_spec {r : ApiRequest} {s : Source} {set del : Except Exc Kernel} {added deleted : Response}
    (hget : r.method ≠ .get) (haddr : (Request.api r).address = some s) (hadded : added.status = 201)
    (hdeleted : deleted.status = 200) (hset : ∀ k', set = .ok k' → Wrote k k' s true)
    (hdel : ∀ k', del = .ok k' → Wrote k k' s false) :
    Served (.api r) k (judged (if r.method = .post then reply k set added else reply k del deleted)) := by
  have hadds := adds_api hget
  split
  · rename_i hpost
    rw [decide_eq_true hpost] at hadds
    exact reply_spec (Or.inr hadded) haddr hadds hset
  · rename_i hpost
    rw [decide_eq_false hpost] at hadds
    exact reply_spec (Or.inl hdeleted) haddr hadds hdel

/-- The API serves every request of its own as the specification says. -/
theorem allowlist_spec (e : Env) (r : ApiRequest) (k : Kernel) : Served (.api r) k (serve e k (.api r)) := by
  show Served (.api r) k (judged (allowlist e r k))
  unfold allowlist
  by_cases hauth : r.authorized = false
  · rw [if_pos hauth]
    exact served_unchanged
  rw [if_neg hauth]
  by_cases hget : r.method = .get
  · rw [if_pos hget]
    refine Or.inr ⟨rfl, Or.inr ?_⟩
    simp only [Request.adds, hget]
  rw [if_neg hget]
  cases hip : getIp r.body with
  | none => exact served_unchanged
  | some ip =>
    dsimp only
    split
    · exact served_unchanged
    have haddress : (Request.api r).address = ipAddress ip := by
      show (getIp r.body).bind ipAddress = _
      rw [hip]
      rfl
    cases hs : ipAddress ip with
    | none => exact served_unchanged
    | some s =>
      rw [hs] at haddress
      cases s with
      | v4 a =>
        cases e.fdV4 with
        | none => exact served_unchanged
        | some fd =>
          have ha := ipAddress_v4.1 hs
          exact post_or_delete_spec hget haddress rfl rfl (fun k' => setMapU32_ok ha) fun k' => delMapU32_ok ha
      | v6 a =>
        cases e.fdV6 with
        | none => exact served_unchanged
        | some fd =>
          cases hcanon : canonicalV6 ip with
          | none => exact served_unchanged
          | some canon =>
            have ha := (ipv6Address_canonicalV6 hcanon).trans (ipAddress_v6.1 hs).2
            exact post_or_delete_spec hget haddress rfl rfl (fun k' => setMapU32V6_ok ha) fun k' => delMapU32V6_ok ha

/-- A text without surrogates can be printed. -/
theorem printable_pyStr (t : Text) : printable (pyStr t) = true := by
  unfold printable pyStr
  rw [List.all_map, List.all_eq_true]
  intro c _
  rw [Function.comp_apply, decide_eq_true_iff]
  rcases c.valid with hlow | ⟨hhigh, -⟩
  · exact Or.inl hlow
  · exact Or.inr hhigh

/-- An operation that has found an address prints the line about it. -/
theorem printable_line {action : Action} {ip : PyStr} {s : Source} (hprint : (Request.cli action (some ip)).Prints)
    (haction : action ≠ .list) (hs : ipAddress (.str ip) = some s) (t : Text) : printable (pyStr t ++ ip) = true := by
  have hip := hprint haction ip rfl (Option.isSome_iff_exists.2 ⟨s, hs⟩)
  unfold printable at hip ⊢
  rw [List.all_append, Bool.and_eq_true]
  exact ⟨printable_pyStr t, hip⟩

/-- The tool's report at the end is of the write before it. -/
theorem report_spec {r : Request} {result : Except Exc Kernel} {line : PyStr} {b : Bool} (hadds : r.adds = some b)
    (hok : ∀ k', result = .ok k' → printable line = true ∧ ∃ s, r.address = some s ∧ Wrote k k' s b) :
    Served r k ((report k result line).1, decide ((report k result line).2.code = 0)) := by
  cases result with
  | error exc => exact served_unchanged
  | ok k' =>
    obtain ⟨hline, s, haddr, hwrote⟩ := hok k' rfl
    simp only [report, hline, if_true]
    exact Or.inl ⟨rfl, s, b, haddr, hadds, hwrote⟩

/-- The family that `main` chooses is the one of `ip_address`. -/
theorem v6_of_isIpv6 {ip : PyStr} (h : isIpv6 ip = true) :
    ∃ a, ipv6Address (.str ip) = some a ∧ ipAddress (.str ip) = some (.v6 a) := by
  obtain ⟨a, ha⟩ := Option.isSome_iff_exists.1 h
  exact ⟨a, ha, ipAddress_v6.2 ⟨ipv4Address_of_v6 ha, ha⟩⟩

/-- What `add` and `del` of the command line do alike, with an operation for each map. -/
def operate (e : Env) (k : Kernel) (ip : Option PyStr) (op6 op4 : Json → Except Exc Kernel) (done6 done4 : Text) :
    Kernel × Exit :=
  match ip.filter (decide <| · ≠ []) with
  | none => (k, ⟨[], 1⟩)
  | some ip =>
    if isIpv6 ip then
      match e.fdV6 with
      | none => (k, ⟨[], 1⟩)
      | some _ => report k (op6 (.str ip)) (pyStr done6 ++ ip)
    else report k (op4 (.str ip)) (pyStr done4 ++ ip)

/-- An `add` or a `del` of the tool, for either family. -/
theorem operate_spec (e : Env) {action : Action} {ip : Option PyStr} {op6 op4 : Json → Except Exc Kernel} {b : Bool}
    (hprint : (Request.cli action ip).Prints) (haction : action ≠ .list) (hadds : (Request.cli action ip).adds = some b)
    (hop6 : ∀ ip a k', ipv6Address ip = some a → op6 ip = .ok k' → Wrote k k' (.v6 a) b)
    (hop4 : ∀ ip a k', ipv4Address ip = some a → op4 ip = .ok k' → Wrote k k' (.v4 a) b)
    (hop4_none : ∀ ip, ipv4Address ip = none → op4 ip = .error .value) (done6 done4 : Text) :
    Served (.cli action ip) k
      ((operate e k ip op6 op4 done6 done4).1, decide ((operate e k ip op6 op4 done6 done4).2.code = 0)) := by
  cases ip with
  | none => exact served_unchanged
  | some ip =>
    by_cases hempty : ip = []
    · subst hempty
      exact served_unchanged
    unfold operate
    simp only [Option.filter_some, decide_eq_true hempty, if_true]
    by_cases hv6 : isIpv6 ip = true
    · simp only [hv6, if_true]
      obtain ⟨a, ha, haddress⟩ := v6_of_isIpv6 hv6
      cases e.fdV6 with
      | none => exact served_unchanged
      | some fd =>
        refine report_spec hadds fun k' hk' => ?_
        exact ⟨printable_line hprint haction haddress _, .v6 a, haddress, hop6 _ a k' ha hk'⟩
    · simp only [hv6]
      cases ha : ipv4Address (.str ip) with
      | none =>
        rw [hop4_none _ ha]
        exact served_unchanged
      | some a =>
        have haddress := ipAddress_v4.2 ha
        refine report_spec hadds fun k' hk' => ?_
        exact ⟨printable_line hprint haction haddress _, .v4 a, haddress, hop4 _ a k' ha hk'⟩

/-- The tool serves every call whose line can be printed. -/
theorem main_spec (e : Env) (action : Action) (ip : Option PyStr) (k : Kernel)
    (hprint : (Request.cli action ip).Prints) :
    Served (.cli action ip) k (serve e k (.cli action ip)) := by
  unfold serve main
  dsimp only
  cases e.fdV4 with
  | none => exact served_unchanged
  | some fd =>
    cases action with
    | list => exact Or.inr ⟨rfl, Or.inr rfl⟩
    | add =>
      exact operate_spec e hprint (by decide) rfl (fun ip a k' => setMapU32V6_ok) (fun ip a k' => setMapU32_ok)
        (fun ip => setMapU32_none)
        "[ALLOW] Added IPv6 ".toList "[ALLOW] Added IPv4 ".toList
    | del =>
      exact operate_spec e hprint (by decide) rfl (fun ip a k' => delMapU32V6_ok) (fun ip a k' => delMapU32_ok)
        (fun ip => delMapU32_none)
        "[ALLOW] Removed IPv6 ".toList "[ALLOW] Removed IPv4 ".toList

/-- **One request** writes its own address, or changes nothing and does not succeed. -/
theorem serve_spec (e : Env) (k : Kernel) {r : Request} (hprint : r.Prints) : Served r k (serve e k r) := by
  cases r with
  | api r => exact allowlist_spec e r k
  | cli action ip => exact main_spec e action ip k hprint

/-! ## Runs -/

/-- What some requests have written, oldest first. -/
def operations (k : Kernel) : List (Env × Request) → Writes Source
  | [] => []
  | r :: rs => written k r ++ operations (serve r.1 k r.2).1 rs

/-- A list of requests in two parts. -/
theorem served_append (k : Kernel) (rs rs' : List (Env × Request)) : served k (rs ++ rs') = served (served k rs) rs' :=
  List.foldl_append

/-- The writes of a list of requests and one more. -/
theorem operations_append (k : Kernel) (rs : List (Env × Request)) (r : Env × Request) :
    operations k (rs ++ [r]) = operations k rs ++ written (served k rs) r := by
  induction rs generalizing k with
  | nil => exact List.append_nil _
  | cons r' rs ih =>
    show written k r' ++ operations _ (rs ++ [r]) = _
    rw [ih, ← List.append_assoc]
    rfl

/-- A request that has not written leaves the kernel as it is. -/
theorem written_spec (k : Kernel) {r : Env × Request} (hprint : r.2.Prints) :
    (∃ s b, r.2.address = some s ∧ written k r = [(s, b)] ∧ Wrote k (serve r.1 k r.2).1 s b) ∨
      written k r = [] ∧ (serve r.1 k r.2).1 = k := by
  unfold written
  rcases serve_spec r.1 k hprint with ⟨hdone, s, b, haddr, hadds, hwrote⟩ | ⟨hsame, hno⟩
  · refine Or.inl ⟨s, b, haddr, ?_, hwrote⟩
    simp only [hdone, haddr, hadds, if_true]
  · refine Or.inr ⟨?_, hsame⟩
    rcases hno with hno | hno
    · simp only [hno]
      rfl
    · rw [hno]
      split
      · cases r.2.address <;> rfl
      · rfl

/-- **The maps are a set**: of the addresses whose last write put them in. -/
theorem allowlisted_served (k : Kernel) (rs : List (Env × Request)) (hprint : ∀ r ∈ rs, r.2.Prints) (s : Source) :
    s ∈ allowlisted (served k rs) ↔ s ∈ Writes.settled (allowlisted k) (operations k rs) := by
  induction rs using List.reverseRecOn with
  | nil =>
    show s ∈ allowlisted k ↔ s ∈ Writes.settled (allowlisted k) []
    rw [Writes.settled_nil]
  | append_singleton rs r ih =>
    have ih := ih fun r' hr' => hprint r' (List.mem_append_left _ hr')
    rw [served_append, operations_append]
    show s ∈ allowlisted (serve r.1 (served k rs) r.2).1 ↔ _
    rcases written_spec (served k rs) (hprint r (List.mem_append_right _ List.mem_cons_self)) with
      ⟨s', b, -, hwritten, hwrote⟩ | ⟨hwritten, hsame⟩
    · rw [hwrote.allowlisted, hwritten, Writes.settled_append]
      split
      · exact Iff.rfl
      · exact ih
    · rw [hsame, hwritten, List.append_nil]
      exact ih

/-! ## Readings -/

/-- No call of a dump fails that something of a map of `n` entries hangs on. -/
def Answered (fail : ℕ → Option ℕ) (n : ℕ) : Prop := fail 0 = none ∧ ∀ t, 0 < t → t < 2 * n → fail t = none

/-- A failing call has another errno than the one for the end of a map. -/
def Failures (fail : ℕ → Option ℕ) : Prop := ∀ t errno, fail t = some errno → errno ≠ Dump.ENOENT

/-- A plan in which no call fails. -/
theorem failures_none : Failures fun _ => none := fun _ _ h => nomatch h

/-- What a dump comes to: it raises, or returns addresses of the map, all of them when its calls are answered. -/
theorem dump_spec {α : Type} [DecidableEq α] {text : α → Text} (htext : Function.Injective text) (zero : α)
    (list : Dict α UInt32)
    {fail : ℕ → Option ℕ} (hfail : Failures fail) :
    (¬ Answered fail list.size ∧ ∃ exc, dump text zero list fail = .error exc) ∨
      ∃ res, dump text zero list fail = .ok res ∧ (∀ t ∈ res.keys, ∃ a ∈ list, t = text a) ∧
        ((∀ a ∈ list, text a ∈ res.keys) ↔ Answered fail list.size) := by
  rcases Dump.run_frozen htext zero list fail hfail with ⟨errno, hfirst, hend⟩ | ⟨hfirst, res, hend, hres⟩
  · refine Or.inl ⟨fun h => ?_, .os errno, by unfold dump; rw [hend]⟩
    rw [h.1] at hfirst
    cases hfirst
  · have hkeys : res.keys = (Dump.collected fail 1 list.items).map fun q => text q.1 := by
      unfold Dict.keys
      rw [hres, List.map_map]
      rfl
    have hsub := Dump.collected_sublist fail list.items 1
    refine Or.inr ⟨res, by unfold dump; rw [hend], fun t ht => ?_, ?_⟩
    · rw [hkeys, List.mem_map] at ht
      obtain ⟨q, hq, rfl⟩ := ht
      exact ⟨q.1, List.mem_map.2 ⟨q, hsub.subset hq, rfl⟩, rfl⟩
    · have hwhole := (Dump.outcome_iff htext zero list fail hfail).2
      rw [hend] at hwhole
      rw [Answered, ← hwhole]
      constructor
      · intro hall
        -- as many as there are in the map
        have hnodup : (list.keys.map text).Nodup := list.nodup.map htext
        have hlen : list.items.length ≤ (Dump.collected fail 1 list.items).length := by
          have hsubperm : (list.keys.map text).Subperm res.keys := by
            refine hnodup.subperm fun t ht => ?_
            obtain ⟨a, ha, rfl⟩ := List.mem_map.1 ht
            exact hall a ha
          have := hsubperm.length_le
          rwa [hkeys, List.length_map, List.length_map, Dict.keys, List.length_map] at this
        exact ⟨res, rfl, by rw [hres, hsub.eq_of_length_le hlen]⟩
      · rintro ⟨res', hres', hitems⟩ a ha
        cases hres'
        obtain ⟨q, hq, rfl⟩ := List.mem_map.1 ha
        exact List.mem_map.2 ⟨(text q.1, q.2), by rw [hitems]; exact List.mem_map.2 ⟨q, hq, rfl⟩, rfl⟩

/-- What is shown is a set of addresses, each once in canonical form. -/
def Shows (out : List Text) (S : Set Source) : Prop := out.Nodup ∧ ∀ t, t ∈ out ↔ ∃ s ∈ S, t = s.text

/-- The address on a line, if it shows one. -/
def lineAddress (line : PyStr) : Option Text :=
  match readable line with
  | ' ' :: ' ' :: t => some t
  | _ => none

theorem nodup_sortedSet (d : Dict Text UInt32) : (sortedSet d.keys).Nodup :=
  (List.mergeSort_perm d.keys _).nodup_iff.2 d.nodup

theorem mem_sortedSet {l : List Text} {t : Text} : t ∈ sortedSet l ↔ t ∈ l := (List.mergeSort_perm l _).mem_iff

/-- The lines about a map show its keys. -/
theorem lines_show {family : Text} (hfamily : ∀ t, lineAddress (pyStr (family ++ t)) = none) (d : Dict Text UInt32) :
    ((sectionLines family d).map pyStr).filterMap lineAddress = sortedSet d.keys := by
  unfold sectionLines
  split
  · rename_i hsize
    rw [Dict.size_eq_keys, List.length_eq_zero_iff] at hsize
    rw [List.map_singleton, List.filterMap_cons_none (hfamily _), List.filterMap_nil, hsize, sortedSet,
      List.mergeSort_nil]
  · rw [List.map_cons, List.filterMap_cons_none (hfamily _), List.map_map, List.filterMap_map]
    refine (List.filterMap_congr fun t _ => ?_).trans List.filterMap_some
    show lineAddress (pyStr (' ' :: ' ' :: t)) = some t
    unfold lineAddress
    rw [readable_pyStr]
    rfl

/-- What both tools show of two dumps. -/
theorem shows_iff {k : Kernel} {d4 d6 : Dict Text UInt32} (h4 : ∀ t ∈ d4.keys, ∃ a ∈ k.v4.allowlistMap, t = keyToIp a)
    (h6 : ∀ t ∈ d6.keys, ∃ a ∈ k.v6.allowlistMap, t = keyToIpV6 a) :
    Shows (sortedSet d4.keys ++ sortedSet d6.keys) (allowlisted k) ↔
      (∀ a ∈ k.v4.allowlistMap, keyToIp a ∈ d4.keys) ∧ ∀ a ∈ k.v6.allowlistMap, keyToIpV6 a ∈ d6.keys := by
  constructor
  · rintro ⟨-, hmem⟩
    constructor
    · intro a ha
      have := (hmem (keyToIp a)).2 ⟨.v4 a, ha, rfl⟩
      rw [List.mem_append, mem_sortedSet, mem_sortedSet] at this
      refine this.resolve_right fun h => ?_
      obtain ⟨a', -, heq⟩ := h6 _ h
      exact nomatch Source.text_injective (show (Source.v4 a).text = (Source.v6 a').text from heq)
    · intro a ha
      have := (hmem (keyToIpV6 a)).2 ⟨.v6 a, ha, rfl⟩
      rw [List.mem_append, mem_sortedSet, mem_sortedSet] at this
      refine this.resolve_left fun h => ?_
      obtain ⟨a', -, heq⟩ := h4 _ h
      exact nomatch Source.text_injective (show (Source.v6 a).text = (Source.v4 a').text from heq)
  · rintro ⟨hall4, hall6⟩
    refine ⟨List.nodup_append.2 ⟨nodup_sortedSet d4, nodup_sortedSet d6, ?_⟩, fun t => ?_⟩
    · rintro t ht t' ht' rfl
      obtain ⟨a, -, heq⟩ := h4 t (mem_sortedSet.1 ht)
      obtain ⟨a', -, heq'⟩ := h6 t (mem_sortedSet.1 ht')
      exact nomatch Source.text_injective (show (Source.v4 a).text = (Source.v6 a').text from heq.symm.trans heq')
    · rw [List.mem_append, mem_sortedSet, mem_sortedSet]
      constructor
      · rintro (ht | ht)
        · obtain ⟨a, ha, rfl⟩ := h4 t ht
          exact ⟨.v4 a, ha, rfl⟩
        · obtain ⟨a, ha, rfl⟩ := h6 t ht
          exact ⟨.v6 a, ha, rfl⟩
      · rintro ⟨s, hs, rfl⟩
        cases s with
        | v4 a => exact Or.inl (hall4 a hs)
        | v6 a => exact Or.inr (hall6 a hs)

/-- A reading gets to see everything: its calls are answered, and on descriptor 0, which it takes for a
map that is not there, it misses nothing. -/
def ReadsWhole (e : Env) (k : Kernel) : Prop :=
  Answered e.failV4 k.v4.allowlistMap.entries.size ∧
    if opened e.fdV6 = true then Answered e.failV6 k.v6.allowlistMap.entries.size else ∀ a, a ∉ k.v6.allowlistMap

section Readings

variable {e : Env} (hfail4 : Failures e.failV4) (hfail6 : Failures e.failV6)

include hfail4 hfail6

/-- The two dumps of a reading. -/
theorem dumps_spec (k : Kernel) :
    (∃ d4 d6, dumpV4 e k = .ok d4 ∧ (if opened e.fdV6 = true then dumpV6 e k else .ok Dict.empty) = .ok d6 ∧
      (Shows (sortedSet d4.keys ++ sortedSet d6.keys) (allowlisted k) ↔ ReadsWhole e k)) ∨
    ¬ ReadsWhole e k ∧ ((∃ exc, dumpV4 e k = .error exc) ∨
      ∃ exc, (if opened e.fdV6 = true then dumpV6 e k else .ok Dict.empty) = .error exc) := by
  rcases dump_spec keyToIp_injective 0 k.v4.allowlistMap.entries hfail4 with ⟨hno, exc, hexc⟩ | ⟨d4, h4, hsub4, hall4⟩
  · exact Or.inr ⟨fun h => hno h.1, Or.inl ⟨exc, hexc⟩⟩
  unfold ReadsWhole
  by_cases hopened : opened e.fdV6 = true
  · rw [if_pos hopened, if_pos hopened]
    rcases dump_spec keyToIpV6_injective (Vector.replicate 16 0) k.v6.allowlistMap.entries hfail6 with
      ⟨hno, exc, hexc⟩ | ⟨d6, h6, hsub6, hall6⟩
    · exact Or.inr ⟨fun h => hno h.2, Or.inr ⟨exc, hexc⟩⟩
    · refine Or.inl ⟨d4, d6, h4, h6, ?_⟩
      rw [shows_iff hsub4 hsub6, ← hall4, ← hall6]
      exact Iff.rfl
  · rw [if_neg hopened, if_neg hopened]
    refine Or.inl ⟨d4, Dict.empty, h4, rfl, ?_⟩
    have hempty : ∀ t ∈ (Dict.empty : Dict Text UInt32).keys, ∃ a ∈ k.v6.allowlistMap, t = keyToIpV6 a := fun t ht =>
      absurd ht List.not_mem_nil
    refine (shows_iff hsub4 hempty).trans (and_congr hall4 ⟨fun h a ha => ?_, fun h a ha => absurd ha (h a)⟩)
    exact List.not_mem_nil (h a ha)

/-- **GET** shows the set exactly when it reads everything. -/
theorem get_iff (k : Kernel) (body : Option Json) {fd : ℕ} (hfd : e.fdV4 = some fd) :
    (∃ v4 v6, (allowlist e ⟨true, .get, body⟩ k).2 = .lists v4 v6 ∧ Shows (v4 ++ v6) (allowlisted k)) ↔
      ReadsWhole e k := by
  have hget : (allowlist e ⟨true, .get, body⟩ k).2 = getAllowlist e k := rfl
  rw [hget]
  unfold getAllowlist
  rw [hfd]
  dsimp only
  rcases dumps_spec hfail4 hfail6 k with ⟨d4, d6, h4, h6, hshows⟩ | ⟨hno, ⟨exc, hexc⟩ | ⟨exc, hexc⟩⟩
  · rw [h4, h6, ← hshows]
    constructor
    · rintro ⟨v4, v6, heq, h⟩
      cases heq
      exact h
    · intro h
      exact ⟨_, _, rfl, h⟩
  · rw [hexc]
    exact iff_of_false (by rintro ⟨v4, v6, heq, -⟩; cases heq) hno
  · rw [hexc]
    refine iff_of_false ?_ hno
    rintro ⟨v4, v6, heq, -⟩
    cases hd4 : dumpV4 e k <;> rw [hd4] at heq <;> cases heq

/-- **`list`** shows it likewise. -/
theorem list_iff (k : Kernel) (ip : Option PyStr) {fd : ℕ} (hfd : e.fdV4 = some fd) :
    ((main e .list ip k).2.code = 0 ∧ Shows ((main e .list ip k).2.lines.filterMap lineAddress) (allowlisted k)) ↔
      ReadsWhole e k := by
  have hmain : (main e .list ip k).2 = ⟨(listAllowlist e k).1.map pyStr, (listAllowlist e k).2⟩ := by
    unfold main
    rw [hfd]
  have hv4 : ∀ t, lineAddress (pyStr ("IPv4".toList ++ t)) = none := fun t => by
    unfold lineAddress
    rw [readable_pyStr]
    rfl
  have hv6 : ∀ t, lineAddress (pyStr ("IPv6".toList ++ t)) = none := fun t => by
    unfold lineAddress
    rw [readable_pyStr]
    rfl
  rw [hmain]
  unfold listAllowlist
  rcases dumps_spec hfail4 hfail6 k with ⟨d4, d6, h4, h6, hshows⟩ | ⟨hno, ⟨exc, hexc⟩ | ⟨exc, hexc⟩⟩
  · rw [h4, ← hshows]
    dsimp only
    by_cases hopened : opened e.fdV6 = true
    · rw [if_pos hopened] at h6 ⊢
      rw [h6]
      dsimp only
      rw [List.map_append, List.filterMap_append, lines_show hv4, lines_show hv6]
      exact and_iff_right rfl
    · rw [if_neg hopened] at h6 ⊢
      cases h6
      dsimp only
      have hheader : (["IPv6 allowlist: (map not loaded)".toList].map pyStr).filterMap lineAddress = [] := rfl
      have hempty : sortedSet (Dict.empty : Dict Text UInt32).keys = [] := List.mergeSort_nil
      rw [List.map_append, List.filterMap_append, lines_show hv4, hheader, hempty]
      exact and_iff_right rfl
  · rw [hexc]
    exact iff_of_false (fun h => nomatch h.1) hno
  · refine iff_of_false (fun h => ?_) hno
    have hopened : opened e.fdV6 = true := by
      by_contra hne
      rw [if_neg hne] at hexc
      cases hexc
    rw [if_pos hopened] at hexc
    cases hd4 : dumpV4 e k with
    | error exc' =>
      rw [hd4] at h
      cases h.1
    | ok d4 =>
      rw [hd4] at h
      dsimp only at h
      rw [if_pos hopened, hexc] at h
      cases h.1

end Readings

/-! ## The tools -/

/-- After some requests, and seen by a tool that finds `e`, the tools implement a set. -/
structure Implements (k : Kernel) (rs : List (Env × Request)) (e : Env) : Prop where
  /-- It is the set of the addresses whose last successful operation was an add. -/
  union : ∀ s, s ∈ allowlisted (served k rs) ↔ s ∈ Writes.settled (allowlisted k) (operations k rs)
  /-- An operation on one family leaves the other as it is. -/
  families : ∀ pre r post, rs = pre ++ r :: post →
    ((∃ a, r.2.address = some (.v4 a)) → (serve r.1 (served k pre) r.2).1.v6 = (served k pre).v6) ∧
      ((∃ a, r.2.address = some (.v6 a)) → (serve r.1 (served k pre) r.2).1.v4 = (served k pre).v4)
  unsuccessful : ∀ pre r post, rs = pre ++ r :: post → (serve r.1 (served k pre) r.2).2 = false →
    (serve r.1 (served k pre) r.2).1 = served k pre
  get : ∀ body, ∃ v4 v6, (allowlist e ⟨true, .get, body⟩ (served k rs)).2 = .lists v4 v6 ∧
    Shows (v4 ++ v6) (allowlisted (served k rs))
  list : ∀ ip, (main e .list ip (served k rs)).2.code = 0 ∧
    Shows ((main e .list ip (served k rs)).2.lines.filterMap lineAddress) (allowlisted (served k rs))

/-- A request of one family leaves the maps of the other alone. -/
theorem Served.family {r : Request} {result : Kernel × Bool} (h : Served r k result) :
    ((∃ a, r.address = some (.v4 a)) → result.1.v6 = k.v6) ∧
      ((∃ a, r.address = some (.v6 a)) → result.1.v4 = k.v4) := by
  rcases h with ⟨-, s, b, haddr, -, hwrote⟩ | ⟨hsame, -⟩
  · rw [haddr]
    constructor
    · rintro ⟨a, ha⟩
      cases ha
      exact (hwrote.family.resolve_left fun h => h.1 a rfl).2
    · rintro ⟨a, ha⟩
      cases ha
      exact (hwrote.family.resolve_right fun h => h.1 a rfl).2
  · rw [hsame]
    exact ⟨fun _ => rfl, fun _ => rfl⟩

/-- A request that reports no success has written nothing. -/
theorem Served.unsuccessful {r : Request} {result : Kernel × Bool} (h : Served r k result) (hno : result.2 = false) :
    result.1 = k := by
  rcases h with ⟨hdone, -⟩ | ⟨hsame, -⟩
  · rw [hno] at hdone
    cases hdone
  · exact hsame

/-- **The allowlist is a set**, when each operation can print its line: exactly when the readings see all of it. -/
theorem implements_iff {k : Kernel} {rs : List (Env × Request)} {e : Env} {fd : ℕ} (hfd : e.fdV4 = some fd)
    (hfail4 : Failures e.failV4) (hfail6 : Failures e.failV6) (hprint : ∀ r ∈ rs, r.2.Prints) :
    Implements k rs e ↔ ReadsWhole e (served k rs) := by
  have hstep : ∀ pre r post, rs = pre ++ r :: post → Served r.2 (served k pre) (serve r.1 (served k pre) r.2) := by
    rintro pre r post rfl
    exact serve_spec r.1 _ (hprint r (List.mem_append_right _ List.mem_cons_self))
  constructor
  · intro h
    exact (get_iff hfail4 hfail6 _ none hfd).1 (h.get none)
  · intro h
    exact {
      union := allowlisted_served k rs hprint
      families := fun pre r post hsplit => (hstep pre r post hsplit).family
      unsuccessful := fun pre r post hsplit => (hstep pre r post hsplit).unsuccessful
      get := fun body => (get_iff hfail4 hfail6 _ body hfd).2 h
      list := fun ip => (list_iff hfail4 hfail6 _ ip hfd).2 h }

/-- A tool that finds both maps, and whose calls do not fail. -/
def finds (fdV4 fdV6 : ℕ) : Env := ⟨some fdV4, some fdV6, none, fun _ => none, fun _ => none⟩

/-- A request with the token and the body `{"ip": ip}`. -/
def asks (method : Method) (ip : String) : Request :=
  .api ⟨true, method, some (.obj [(pyStr "ip".toList, .str (pyStr ip.toList))])⟩

/-- One address under two spellings, and one of the other family. -/
def threeRequests : List (Env × Request) :=
  [(finds 3 4, asks .post "2001:DB8:0::1"), (finds 3 4, .cli .add (some (pyStr "10.0.0.1".toList))),
    (finds 4 3, .cli .del (some (pyStr "2001:db8::1%eth0".toList)))]

theorem implements_threeRequests : Implements (Kernel.init 1) threeRequests (finds 3 4) := by
  refine (implements_iff rfl failures_none failures_none fun r hr => ?_).2
    ⟨⟨rfl, fun _ _ _ => rfl⟩, rfl, fun _ _ _ => rfl⟩
  fin_cases hr
  · trivial
  · intro _ s hs _
    cases hs
    decide
  · intro _ s hs _
    cases hs
    decide

/-- On descriptor 0 the API takes an address and does not show it. -/
theorem hidden_address : ¬ Implements (Kernel.init 1) [(finds 3 0, asks .post "2001:db8::1")] (finds 3 0) := by
  intro h
  have hwhole := (get_iff failures_none failures_none _ none rfl).1 (h.get none)
  have hempty : (served (Kernel.init 1) [(finds 3 0, asks .post "2001:db8::1")]).v6.allowlistMap.entries.keys = [] :=
    List.eq_nil_iff_forall_not_mem.2 hwhole.2
  exact absurd hempty (by decide +kernel)

/-- **A zone that cannot be printed**: taking its address off the list fails, after the address is off. -/
theorem unprintable_del {k : Kernel} {rs : List (Env × Request)} {e e' : Env} {ip : PyStr} {a : Ip6} {fd fd' : ℕ}
    (hfd : e.fdV4 = some fd) (hfd' : e.fdV6 = some fd') (hfail : e.fail = none) (ha : ipv6Address (.str ip) = some a)
    (hprint : printable ip = false) (hmem : a ∈ (served k rs).v6.allowlistMap) :
    ¬ Implements k (rs ++ [(e, .cli .del (some ip))]) e' := by
  intro h
  have hempty : ip ≠ [] := by
    rintro rfl
    cases hprint
  have hline : printable (pyStr "[ALLOW] Removed IPv6 ".toList ++ ip) = false := by
    unfold printable at hprint ⊢
    rw [List.all_append, hprint, Bool.and_false]
  obtain ⟨k', hk'⟩ : ∃ k', delMapU32V6 e.fail (served k rs) (.str ip) = .ok k' := by
    unfold delMapU32V6 deleteElem BpfHash.deleteElem
    rw [ha, hfail]
    dsimp only
    rw [if_pos (show a ∈ (served k rs).v6.allowlistMap.entries from hmem)]
    exact ⟨_, rfl⟩
  have hserve : serve e (served k rs) (.cli .del (some ip)) = (k', false) := by
    have hmain : main e .del (some ip) (served k rs) = (k', ⟨[], 1⟩) := by
      unfold main
      simp only [hfd, hfd', Option.filter_some, decide_eq_true hempty, if_true, isIpv6, ha, Option.isSome_some,
        report, hk', hline]
      rfl
    unfold serve
    simp only [hmain]
    rfl
  have hwrote := delMapU32V6_ok ha hk'
  have hsame := h.unsuccessful rs _ [] rfl (congrArg Prod.snd hserve)
  rw [hserve] at hsame
  have hgone := (hwrote.allowlisted (.v6 a)).1 (by rw [show k' = served k rs from hsame]; exact hmem)
  rw [if_pos rfl] at hgone
  cases hgone

end FluxGuard.Allowlist
