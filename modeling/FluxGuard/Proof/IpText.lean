import FluxGuard.Model.IpText

/-!
# Addresses survive their text

* `ipToKey_keyToIp`, `ipToKeyV6_keyToIpV6`: the text of a key reads back as the key.
* `colon_mem_keyToIpV6`, `colon_not_mem_keyToIp`: a colon tells the two families apart.
-/

namespace FluxGuard

/-- A character of a joined text is the separator or in one of the parts. -/
theorem mem_intercalate {α : Type} {x c : α} {ls : List (List α)} (h : c ∈ [x].intercalate ls) :
    c = x ∨ ∃ l ∈ ls, c ∈ l := by
  induction ls with
  | nil => simp at h
  | cons l ls ih =>
    cases ls with
    | nil => right; simpa using h
    | cons l' ls =>
      rw [List.intercalate_cons_cons] at h
      simp only [List.mem_append, List.mem_singleton] at h
      rcases h with (h | h) | h
      · exact Or.inr ⟨l, List.mem_cons_self .., h⟩
      · exact Or.inl h
      · rcases ih h with h | ⟨m, hm, hc⟩
        · exact Or.inl h
        · exact Or.inr ⟨m, List.mem_cons_of_mem _ hm, hc⟩

/-- One part that cannot be read is enough. -/
theorem mapM_eq_none {α β : Type} {f : α → Option β} {l : List α} {a : α} (ha : a ∈ l) (hf : f a = none) :
    l.mapM f = none := by
  induction l with
  | nil => cases ha
  | cons x l ih =>
    rw [List.mapM_cons]
    rcases List.mem_cons.1 ha with rfl | ha
    · rw [hf]
      rfl
    · rw [ih ha]
      cases f x <;> rfl

/-- Parts that are read back one by one are read back together. -/
theorem mapM_map_eq_some {α β : Type} {f : α → β} {g : β → Option α} {l : List α}
    (h : ∀ a ∈ l, g (f a) = some a) : (l.map f).mapM g = some l := by
  induction l with
  | nil => rfl
  | cons a l ih =>
    rw [List.map_cons, List.mapM_cons, h a (List.mem_cons_self ..),
      ih fun b hb => h b (List.mem_cons_of_mem _ hb)]
    rfl

/-! ## IPv4 -/

theorem Ip4.ofBytes_bytes (k : Ip4) : Ip4.ofBytes k.bytes = k := by
  unfold Ip4.ofBytes Ip4.bytes
  rw [leNat_leBytes_of_lt k.toNat_lt, UInt32.ofNat_toNat]

/-- An octet is read as it was written. -/
theorem parseOctet_toDigits (b : UInt8) : parseOctet (Nat.toDigits 10 b.toNat) = some b := by
  have hb := b.toNat_lt
  have hlen : (Nat.toDigits 10 b.toNat).length ≤ 3 :=
    (Nat.length_toDigits_le_iff (by decide) (by decide)).2 (by omega)
  have hdigits : (Nat.toDigits 10 b.toNat).all Char.isDigit = true :=
    List.all_eq_true.2 fun c hc => Nat.isDigit_of_mem_toDigits (by decide) (Nat.le_refl 10) hc
  have hzero : ¬ (Nat.toDigits 10 b.toNat ≠ ['0'] ∧ (Nat.toDigits 10 b.toNat).head? = some '0') := by
    rintro ⟨hne, hhead⟩
    rcases Nat.eq_zero_or_pos b.toNat with h0 | hpos
    · exact hne (by rw [h0, Nat.toDigits_zero])
    · obtain ⟨d, s, he, hd, hd10⟩ := head_toDigits (b := 10) (by decide) (by decide) hpos
      have key : ∀ d < 10, 0 < d → Nat.digitChar d ≠ '0' := by decide
      rw [he] at hhead
      exact key d hd10 hd (Option.some.inj hhead)
  unfold parseOctet
  rw [if_neg Nat.toDigits_ne_nil, if_neg (by simp [hdigits]), if_neg (by omega), if_neg hzero]
  simp only [Nat.ofDigitChars_ten_toDigits]
  rw [if_neg (by omega), UInt8.ofNat_toNat]

/-- So are the four of an address. -/
theorem ipv4Packed_ipv4Str {bytes : List UInt8} (h : bytes.length = 4) : ipv4Packed (ipv4Str bytes) = some bytes := by
  have hdot : ∀ l ∈ bytes.map (fun b => Nat.toDigits 10 b.toNat), '.' ∉ l := by
    intro l hl
    obtain ⟨b, -, rfl⟩ := List.mem_map.1 hl
    exact not_mem_toDigits (by decide) (by decide) (by decide)
  have hslash : '/' ∉ ipv4Str bytes := by
    intro hm
    rcases mem_intercalate hm with hm | ⟨l, hl, hm⟩
    · exact absurd hm (by decide)
    · obtain ⟨b, -, rfl⟩ := List.mem_map.1 hl
      exact not_mem_toDigits (by decide) (by decide) (by decide) hm
  have hne : bytes.map (fun b => Nat.toDigits 10 b.toNat) ≠ [] := by
    intro he; rw [List.map_eq_nil_iff] at he; rw [he] at h; cases h
  unfold ipv4Packed
  rw [if_neg hslash, ipv4Str, List.splitOn_intercalate '.' hdot hne]
  simp only [List.length_map, h, ne_eq, not_true_eq_false, if_false]
  exact mapM_map_eq_some fun b _ => parseOctet_toDigits b

/-- **IPv4 keys survive their text.** -/
theorem ipToKey_keyToIp (k : Ip4) : ipToKey (keyToIp k) = some k := by
  unfold ipToKey keyToIp
  rw [ipv4Packed_ipv4Str (show k.bytes.length = 4 from length_leBytes ..), Option.map_some, Ip4.ofBytes_bytes]

example : keyToIp 0x0501000A = "10.0.1.5".toList := by decide

/-- Two IPv4 addresses have two texts. -/
theorem keyToIp_injective : Function.Injective keyToIp := by
  intro k k' h
  have := congrArg ipToKey h
  rw [ipToKey_keyToIp, ipToKey_keyToIp] at this
  exact Option.some.inj this

theorem colon_not_mem_keyToIp (k : Ip4) : ':' ∉ keyToIp k := by
  intro hm
  rcases mem_intercalate hm with hm | ⟨l, hl, hm⟩
  · exact absurd hm (by decide)
  · obtain ⟨b, -, rfl⟩ := List.mem_map.1 hl
    exact not_mem_toDigits (by decide) (by decide) (by decide) hm

/-! ## The groups of an IPv6 address -/

/-- The bytes of the hextets are the bytes. -/
theorem flatMap_hextetBytes : ∀ (bytes : List UInt8), bytes.length % 2 = 0 →
    (hextetsOf bytes).flatMap hextetBytes = bytes
  | [], _ => rfl
  | [_], h => by simp at h
  | a :: b :: bytes, h => by
    have ih := flatMap_hextetBytes bytes (by simp only [List.length_cons] at h; omega)
    have ha : (UInt8.ofNat ((a.toNat * 256 + b.toNat) / 256)) = a := by
      have := a.toNat_lt
      have := b.toNat_lt
      rw [← UInt8.toNat_inj, UInt8.toNat_ofNat']
      omega
    have hb : (UInt8.ofNat (a.toNat * 256 + b.toNat)) = b := by
      have := b.toNat_lt
      rw [← UInt8.toNat_inj, UInt8.toNat_ofNat']
      omega
    rw [hextetsOf, List.flatMap_cons, ih, hextetBytes, ha, hb]
    rfl

theorem lt_of_mem_hextetsOf : ∀ {bytes : List UInt8} {h : ℕ}, h ∈ hextetsOf bytes → h < 65536
  | [], _, hm => by cases hm
  | [_], _, hm => by cases hm
  | a :: b :: bytes, h, hm => by
    rw [hextetsOf, List.mem_cons] at hm
    rcases hm with rfl | hm
    · have := a.toNat_lt
      have := b.toNat_lt
      omega
    · exact lt_of_mem_hextetsOf hm

theorem length_hextetsOf : ∀ bytes : List UInt8, (hextetsOf bytes).length = bytes.length / 2
  | [] => rfl
  | [_] => by simp [hextetsOf]
  | _ :: _ :: bytes => by rw [hextetsOf, List.length_cons, length_hextetsOf bytes]; simp; omega

/-- A hextet is read as it was written. -/
theorem parseHextet_toDigits {h : ℕ} (hh : h < 65536) : parseHextet (Nat.toDigits 16 h) = some h := by
  have hlen : (Nat.toDigits 16 h).length ≤ 4 := (Nat.length_toDigits_le_iff (by decide) (by decide)).2 (by omega)
  unfold parseHextet
  rw [if_neg Nat.toDigits_ne_nil, if_neg (by omega), readHex_toDigits]

/-! ## Compression -/

/-- The runs that the loop of `_compress_hextets` has found in the first `i` groups are
runs of zeros. -/
structure Doublecolon.Scanned (L : List Text) (i : ℕ) (d : Doublecolon) : Prop where
  best_le : d.bestStart + d.bestLen ≤ i
  best : ∀ j, d.bestStart ≤ j → j < d.bestStart + d.bestLen → L[j]? = some ['0']
  start : ∀ st, d.start = some st → st + d.len = i
  closed : d.start = none → d.len = 0
  run : ∀ j, i ≤ j + d.len → j < i → L[j]? = some ['0']

/-- One hextet more is scanned. -/
theorem Doublecolon.Scanned.step {L : List Text} {i : ℕ} {d : Doublecolon} (h : d.Scanned L i) {hextet : Text}
    (hi : L[i]? = some hextet) : (d.scan i hextet).Scanned L (i + 1) := by
  have hbest := h.best_le
  unfold Doublecolon.scan
  by_cases hz : hextet = ['0']
  · rw [if_pos hz]
    have hst : d.start.getD i + (d.len + 1) = i + 1 := by
      cases hs : d.start with
      | none => rw [h.closed hs]; simp
      | some st => have := h.start st hs; simp only [Option.getD_some]; omega
    have hrun : ∀ j, i + 1 ≤ j + (d.len + 1) → j < i + 1 → L[j]? = some ['0'] := by
      intro j hj hji
      rcases Nat.eq_or_lt_of_le (Nat.lt_succ_iff.1 hji) with rfl | hlt
      · rw [hi, hz]
      · exact h.run j (by omega) hlt
    have hopen : ∀ st, some (d.start.getD i) = some st → st + (d.len + 1) = i + 1 := by
      intro st hs; cases hs; exact hst
    dsimp only
    split
    · -- the open run is the longest one now
      refine ⟨?_, ?_, hopen, by simp, hrun⟩ <;> dsimp only
      · omega
      · intro j hj hj'
        exact hrun j (by omega) (by omega)
    · exact ⟨Nat.le_succ_of_le hbest, h.best, hopen, by simp, hrun⟩
  · rw [if_neg hz]
    exact ⟨Nat.le_succ_of_le hbest, h.best, by simp, fun _ => rfl,
      fun j hj hji => absurd hj (by simp only; omega)⟩

/-- The scan finds a run of zeros, if there is one. -/
theorem Doublecolon.scanned_foldl (l : List Text) : ∀ (L : List Text) (i : ℕ) (d : Doublecolon), d.Scanned L i →
    (∀ j, L[i + j]? = l[j]?) →
    ((l.zipIdx i).foldl (fun d p => Doublecolon.scan d p.2 p.1) d).Scanned L (i + l.length) := by
  induction l with
  | nil => intro L i d h _; exact h
  | cons x l ih =>
    intro L i d h hL
    rw [List.zipIdx_cons, List.foldl_cons, List.length_cons, show i + (l.length + 1) = i + 1 + l.length by omega]
    refine ih L (i + 1) _ (h.step (by simpa using hL 0)) fun j => ?_
    rw [show i + 1 + j = i + (j + 1) by omega, hL (j + 1), List.getElem?_cons_succ]

/-- The part before or after a `::`, which is empty at an end of the address. -/
def orEmpty (parts : List Text) : List Text := if parts = [] then [[]] else parts

/-- `_compress_hextets` replaces a run of zeros, if anything. -/
theorem compressHextets_cases (L : List Text) :
    compressHextets L = L ∨ ∃ P n Q, 2 ≤ n ∧ L = P ++ List.replicate n ['0'] ++ Q ∧
      compressHextets L = orEmpty P ++ [[]] ++ orEmpty Q := by
  have hscan := Doublecolon.scanned_foldl L L 0 ⟨0, 0, none, 0⟩
    ⟨Nat.le_refl 0, fun j h h' => absurd h' (by simp only; omega), by simp, fun _ => rfl, fun j h h' => by omega⟩
    fun j => by rw [Nat.zero_add]
  rw [Nat.zero_add] at hscan
  unfold compressHextets
  set d : Doublecolon := L.zipIdx.foldl (fun d p => Doublecolon.scan d p.2 p.1) ⟨0, 0, none, 0⟩ with hd
  by_cases hlen : d.bestLen > 1
  · right
    have hle := hscan.best_le
    refine ⟨L.take d.bestStart, d.bestLen, L.drop (d.bestStart + d.bestLen), hlen, ?_, ?_⟩
    -- what lies between the two ends of the best run is zeros
    · have hmid : (L.drop d.bestStart).take d.bestLen = List.replicate d.bestLen ['0'] := by
        rw [List.eq_replicate_iff, List.length_take, List.length_drop]
        refine ⟨by omega, fun x hx => ?_⟩
        obtain ⟨j, hj, rfl⟩ := List.mem_iff_getElem.1 hx
        rw [List.length_take, List.length_drop] at hj
        have := hscan.best (d.bestStart + j) (by omega) (by omega)
        rw [List.getElem?_eq_getElem (by omega)] at this
        simpa using this
      rw [← hmid, ← List.drop_drop, List.append_assoc, List.take_append_drop, List.take_append_drop]
    -- a run at an end leaves an empty part there
    · have htake : L.take d.bestStart = [] ↔ d.bestStart = 0 := by
        rw [List.take_eq_nil_iff]
        refine ⟨fun h => h.resolve_right ?_, Or.inl⟩
        rintro rfl
        simp at hle
        omega
      have hdrop : L.drop (d.bestStart + d.bestLen) = [] ↔ d.bestStart + d.bestLen = L.length := by
        rw [List.drop_eq_nil_iff]; omega
      simp only [if_pos hlen, orEmpty, htake, hdrop]
      by_cases hend : d.bestStart + d.bestLen = L.length
      · have h1 : (L ++ [[]]).take d.bestStart = L.take d.bestStart :=
          List.take_append_of_le_length (by omega)
        have h2 : (L ++ [[]]).drop (d.bestStart + d.bestLen) = [[]] := by rw [hend]; simp
        rw [if_pos hend, if_pos hend, h1, h2]
        by_cases h0 : d.bestStart = 0
        · rw [if_pos h0, if_pos h0, htake.2 h0]; rfl
        · rw [if_neg h0, if_neg h0]
      · rw [if_neg hend, if_neg hend]
        by_cases h0 : d.bestStart = 0
        · rw [if_pos h0, if_pos h0, htake.2 h0]; rfl
        · rw [if_neg h0, if_neg h0]
  · left; simp only [if_neg hlen]

/-! ## Reading the groups back -/

/-- What printing gives for groups of 16 bits: nothing that ends a part. -/
theorem not_mem_part {c : Char} (hc : hexVal c = none) {L : List ℕ} {l : Text}
    (hl : l ∈ L.map (Nat.toDigits 16)) : c ∉ l := by
  obtain ⟨h, -, rfl⟩ := List.mem_map.1 hl
  exact not_mem_toDigits hc (by decide) (by decide)

theorem nil_not_mem_parts (L : List ℕ) : [] ∉ L.map (Nat.toDigits 16) := by
  intro h
  obtain ⟨n, -, hn⟩ := List.mem_map.1 h
  exact Nat.toDigits_ne_nil hn

/-- All the hextets are read as they were written. -/
theorem mapM_parseHextet {L : List ℕ} (h : ∀ n ∈ L, n < 65536) : (L.map (Nat.toDigits 16)).mapM parseHextet = some L :=
  mapM_map_eq_some fun n hn => parseHextet_toDigits (h n hn)

theorem orEmpty_ne_nil (P : List Text) : orEmpty P ≠ [] := by
  unfold orEmpty; split
  · simp
  · assumption

/-- Eight groups in full. -/
theorem partsHextets_full {L : List ℕ} (hlen : L.length = 8) (hL : ∀ n ∈ L, n < 65536) :
    partsHextets (L.map (Nat.toDigits 16)) = some L := by
  have hmem : ∀ l : Text, l ∈ L.map (Nat.toDigits 16) → l ≠ [] := fun l hl he => nil_not_mem_parts L (he ▸ hl)
  have hne : L.map (Nat.toDigits 16) ≠ [] := by intro h; rw [List.map_eq_nil_iff] at h; rw [h] at hlen; cases hlen
  have hcount : (L.map (Nat.toDigits 16)).tail.dropLast.count [] = 0 :=
    List.count_eq_zero.2 fun h => nil_not_mem_parts L (List.mem_of_mem_tail (List.dropLast_subset _ h))
  have hhead : (L.map (Nat.toDigits 16)).headD [] ≠ [] := by
    rw [List.headD_eq_head?_getD, List.head?_eq_some_head hne, Option.getD_some]
    exact hmem _ (List.head_mem hne)
  have hlast : (L.map (Nat.toDigits 16)).getLastD [] ≠ [] := by
    rw [List.getLastD_eq_getLast?, List.getLast?_eq_some_getLast hne, Option.getD_some]
    exact hmem _ (List.getLast_mem hne)
  unfold partsHextets
  simp only [hcount, List.length_map, hlen]
  rw [if_neg (by decide), if_neg (by decide), if_neg (by decide), if_neg (by decide), if_neg hhead, if_neg hlast]
  exact mapM_parseHextet hL

/-- What the parts before a `::` look like to the parser. -/
theorem orEmpty_front (P : List ℕ) :
    [] ∉ (orEmpty (P.map (Nat.toDigits 16))).tail ∧
      ((orEmpty (P.map (Nat.toDigits 16))).headD [] = [] ↔ P = []) ∧
      (orEmpty (P.map (Nat.toDigits 16))).length = (if P = [] then 1 else P.length) := by
  unfold orEmpty
  cases P with
  | nil => simp
  | cons m P => simp [Nat.toDigits_ne_nil]

/-- What the parts after a `::` look like to the parser. -/
theorem orEmpty_back (Q : List ℕ) :
    [] ∉ (orEmpty (Q.map (Nat.toDigits 16))).dropLast ∧
      ((orEmpty (Q.map (Nat.toDigits 16))).getLastD [] = [] ↔ Q = []) ∧
      (orEmpty (Q.map (Nat.toDigits 16))).length = (if Q = [] then 1 else Q.length) := by
  unfold orEmpty
  rcases List.eq_nil_or_concat Q with rfl | ⟨Q, m, rfl⟩
  · simp
  · simp [Nat.toDigits_ne_nil]

/-- Groups around a `::`. -/
theorem partsHextets_compressed {P Q : List ℕ} {n : ℕ} (hn : 2 ≤ n) (hlen : P.length + n + Q.length = 8)
    (hP : ∀ m ∈ P, m < 65536) (hQ : ∀ m ∈ Q, m < 65536) :
    partsHextets (orEmpty (P.map (Nat.toDigits 16)) ++ [[]] ++ orEmpty (Q.map (Nat.toDigits 16))) =
      some (P ++ List.replicate n 0 ++ Q) := by
  obtain ⟨hAtail, hAhead, hAlen⟩ := orEmpty_front P
  obtain ⟨hBlast, hBend, hBlen⟩ := orEmpty_back Q
  set A := orEmpty (P.map (Nat.toDigits 16)) with hA
  set B := orEmpty (Q.map (Nat.toDigits 16)) with hB
  have hAne : A ≠ [] := orEmpty_ne_nil _
  have hBne : B ≠ [] := orEmpty_ne_nil _
  -- the only empty part inside is the one of the `::`
  have hmiddle : (A ++ [[]] ++ B).tail.dropLast = A.tail ++ [[]] ++ B.dropLast := by
    rw [List.append_assoc, List.tail_append_of_ne_nil hAne, List.dropLast_append_of_ne_nil (by simp),
      List.dropLast_append_of_ne_nil hBne, List.append_assoc]
  have hcount : (A.tail ++ [[]] ++ B.dropLast).count [] = 1 := by
    rw [List.count_append, List.count_append, List.count_eq_zero.2 hAtail, List.count_eq_zero.2 hBlast]
    simp
  have hskip : 1 + (A.tail ++ [[]] ++ B.dropLast).idxOf [] = A.length := by
    rw [List.append_assoc, List.idxOf_append_of_notMem hAtail, List.length_tail]
    have := List.length_pos_iff.2 hAne
    simp
    omega
  have hhead : (A ++ [[]] ++ B).headD [] = A.headD [] := by
    rw [List.append_assoc]
    cases hA' : A with
    | nil => exact absurd hA' hAne
    | cons a A => rfl
  have hlast : (A ++ [[]] ++ B).getLastD [] = B.getLastD [] := by
    rw [List.getLastD_eq_getLast?, List.getLastD_eq_getLast?, List.getLast?_append_of_ne_nil _ hBne]
  have hlength : (A ++ [[]] ++ B).length = A.length + 1 + B.length := by
    rw [List.length_append, List.length_append, List.length_singleton]
  have hlo : A.length + 1 + B.length - A.length - 1 = B.length := by omega
  have hPle : P.length ≤ 6 := by omega
  have hQle : Q.length ≤ 6 := by omega
  have hPzero : P = [] ↔ P.length = 0 := List.length_eq_zero_iff.symm
  have hQzero : Q = [] ↔ Q.length = 0 := List.length_eq_zero_iff.symm
  -- the parts that the parser counts on each side
  have hhi : (if P = [] then 0 else A.length) = P.length := by
    rw [hAlen]; split
    · rename_i h; rw [h]; rfl
    · rfl
  have hlo' : (if Q = [] then 0 else B.length) = Q.length := by
    rw [hBlen]; split
    · rename_i h; rw [h]; rfl
    · rfl
  have htake : (A ++ [[]] ++ B).take P.length = P.map (Nat.toDigits 16) := by
    by_cases h : P = []
    · rw [h]; rfl
    · have : A = P.map (Nat.toDigits 16) := if_neg (by simpa using h)
      rw [this, List.append_assoc, List.take_append_of_le_length (by simp)]
      exact List.take_of_length_le (by simp)
  have hdrop : (A ++ [[]] ++ B).drop (A.length + 1 + B.length - Q.length) = Q.map (Nat.toDigits 16) := by
    by_cases h : Q = []
    · rw [h, List.map_nil, List.drop_eq_nil_iff, hlength]; simp
    · have hBQ : B = Q.map (Nat.toDigits 16) := if_neg (by simpa using h)
      have hl : A.length + 1 + B.length - Q.length = (A ++ [[]]).length := by
        rw [hBQ, List.length_map, List.length_append]; simp
      rw [hl, List.drop_left, hBQ]
  unfold partsHextets
  simp only [hmiddle, hcount, hskip, hhead, hlast, hlength, hlo, hAhead, hBend, hhi, hlo', htake, hdrop,
    mapM_parseHextet hP, mapM_parseHextet hQ]
  rw [if_neg, if_neg (by decide), if_pos trivial, if_neg, if_neg, if_neg (by omega)]
  · show some _ = some _
    rw [show 8 - (P.length + Q.length) = n by omega]
  · rintro ⟨h, h1⟩; exact h1 (by rw [hBlen, if_pos h])
  · rintro ⟨h, h1⟩; exact h1 (by rw [hAlen, if_pos h])
  · rw [hAlen, hBlen]; split <;> split <;> omega

/-! ## Whole addresses -/

/-- Two numbers have two texts. -/
theorem toDigits_injective {m n : ℕ} (h : Nat.toDigits 16 m = Nat.toDigits 16 n) : m = n := by
  have := congrArg readHex h
  rw [readHex_toDigits, readHex_toDigits] at this
  exact Option.some.inj this

/-- The parts of a printed address: at least three, of hexadecimal digits only, and the parser
recovers the groups. -/
theorem partsHextets_compressHextets {L : List ℕ} (hlen : L.length = 8) (hL : ∀ n ∈ L, n < 65536) :
    partsHextets (compressHextets (L.map (Nat.toDigits 16))) = some L ∧
      3 ≤ (compressHextets (L.map (Nat.toDigits 16))).length ∧
      ∀ l ∈ compressHextets (L.map (Nat.toDigits 16)), ∀ c, hexVal c = none → c ∉ l := by
  -- with a `::` or without one
  rcases compressHextets_cases (L.map (Nat.toDigits 16)) with h | ⟨P', n, Q', hn, hsplit, h⟩
  · rw [h]
    exact ⟨partsHextets_full hlen hL, by rw [List.length_map]; omega, fun l hl c hc => not_mem_part hc hl⟩
  · obtain ⟨L', Q, rfl, hL', rfl⟩ := List.map_eq_append_iff.1 hsplit
    obtain ⟨P, R, rfl, rfl, hR⟩ := List.map_eq_append_iff.1 hL'
    have hzero : R = List.replicate n 0 := by
      rw [List.eq_replicate_iff]
      have hRlen := congrArg List.length hR
      rw [List.length_map, List.length_replicate] at hRlen
      refine ⟨hRlen, fun m hm => toDigits_injective ?_⟩
      have := List.mem_map_of_mem (f := Nat.toDigits 16) hm
      rw [hR] at this
      exact List.eq_of_mem_replicate this
    subst hzero
    simp only [List.length_append, List.length_replicate] at hlen
    have hPL : ∀ m ∈ P, m < 65536 := fun m hm => hL m (by simp [hm])
    have hQL : ∀ m ∈ Q, m < 65536 := fun m hm => hL m (by simp [hm])
    have hdigit : ∀ M : List ℕ, ∀ l ∈ orEmpty (M.map (Nat.toDigits 16)), ∀ c, hexVal c = none → c ∉ l := by
      intro M l hl c hc
      unfold orEmpty at hl
      split at hl
      · rw [List.mem_singleton.1 hl]; simp
      · exact not_mem_part hc hl
    rw [h]
    refine ⟨partsHextets_compressed hn hlen hPL hQL, ?_, fun l hl c hc => ?_⟩
    · have h1 := List.length_pos_iff.2 (orEmpty_ne_nil (P.map (Nat.toDigits 16)))
      have h2 := List.length_pos_iff.2 (orEmpty_ne_nil (Q.map (Nat.toDigits 16)))
      rw [List.length_append, List.length_append, List.length_singleton]
      omega
    · rcases List.mem_append.1 hl with hl | hl
      · rcases List.mem_append.1 hl with hl | hl
        · exact hdigit P l hl c hc
        · rw [List.mem_singleton.1 hl]; simp
      · exact hdigit Q l hl c hc

/-- Between its colons an IPv6 text has the compressed hextets. -/
theorem splitOn_ipv6Str {bytes : List UInt8} (h : bytes.length = 16) :
    (ipv6Str bytes).splitOn ':' = compressHextets ((hextetsOf bytes).map (Nat.toDigits 16)) := by
  obtain ⟨-, hthree, hdigit⟩ := partsHextets_compressHextets (by rw [length_hextetsOf, h])
    fun n hn => lt_of_mem_hextetsOf hn
  refine List.splitOn_intercalate ':' (fun l hl => hdigit l hl ':' (by decide)) fun he => ?_
  rw [he] at hthree
  cases hthree

/-- The text of an address holds digits and colons. -/
theorem not_mem_ipv6Str {bytes : List UInt8} (h : bytes.length = 16) {c : Char} (hc : c ≠ ':') (hv : hexVal c = none) :
    c ∉ ipv6Str bytes := by
  obtain ⟨-, -, hdigit⟩ := partsHextets_compressHextets (by rw [length_hextetsOf, h] : (hextetsOf bytes).length = 8)
    fun n hn => lt_of_mem_hextetsOf hn
  intro hm
  rcases mem_intercalate hm with hm | ⟨l, hl, hm⟩
  · exact hc hm
  · exact hdigit l hl c hv hm

/-- Sixteen bytes survive their text. -/
theorem ipv6Packed_ipv6Str {bytes : List UInt8} (h : bytes.length = 16) : ipv6Packed (ipv6Str bytes) = some bytes := by
  have hlen : (hextetsOf bytes).length = 8 := by rw [length_hextetsOf, h]
  obtain ⟨hparse, hthree, hdigit⟩ := partsHextets_compressHextets hlen fun n hn => lt_of_mem_hextetsOf hn
  set parts := compressHextets ((hextetsOf bytes).map (Nat.toDigits 16)) with hparts
  have hne : parts ≠ [] := by intro he; rw [he] at hthree; cases hthree
  have hsplit := splitOn_ipv6Str h
  rw [← hparts] at hsplit
  have hnil : ipv6Str bytes ≠ [] := by
    intro he; rw [he, List.splitOn_nil] at hsplit; rw [← hsplit] at hthree; simp at hthree
  have hlast : '.' ∉ parts.getLastD [] := by
    rw [List.getLastD_eq_getLast?, List.getLast?_eq_some_getLast hne, Option.getD_some]
    exact hdigit _ (List.getLast_mem hne) '.' (by decide)
  unfold ipv6Packed splitScopeId ipIntFromString expandIpv4Suffix
  rw [if_neg (not_mem_ipv6Str h (by decide : '/' ≠ ':') (by decide)),
    if_neg (not_mem_ipv6Str h (by decide : '%' ≠ ':') (by decide)),
    Option.bind_some, if_neg hnil, hsplit]
  simp only [if_neg (Nat.not_lt.2 hthree), if_neg hlast, Option.bind_some, hparse, Option.map_some]
  rw [flatMap_hextetBytes bytes (by omega)]

theorem Ip6.ofBytes_toList (k : Ip6) : Ip6.ofBytes k.toList = k := by
  unfold Ip6.ofBytes
  ext i hi
  simp [List.getD_eq_getElem?_getD]

/-- **IPv6 keys survive their text.** -/
theorem ipToKeyV6_keyToIpV6 (k : Ip6) : ipToKeyV6 (keyToIpV6 k) = some k := by
  unfold ipToKeyV6 keyToIpV6
  rw [ipv6Packed_ipv6Str (by simp), Option.map_some, Ip6.ofBytes_toList]

example : ipv6Str [0x20, 1, 0xd, 0xb8, 0, 0, 0, 0, 0, 0, 0, 0, 0, 0, 0, 1] = "2001:db8::1".toList := by decide
example : ipv6Str (List.replicate 16 0) = "::".toList := by decide
example : ipToKeyV6 "::ffff:10.0.1.5".toList =
    some (Ip6.ofBytes [0, 0, 0, 0, 0, 0, 0, 0, 0, 0, 0xff, 0xff, 10, 0, 1, 5]) := by decide +kernel

/-- Two IPv6 addresses have two texts. -/
theorem keyToIpV6_injective : Function.Injective keyToIpV6 := by
  intro k k' h
  have := congrArg ipToKeyV6 h
  rw [ipToKeyV6_keyToIpV6, ipToKeyV6_keyToIpV6] at this
  exact Option.some.inj this

theorem colon_mem_keyToIpV6 (k : Ip6) : ':' ∈ keyToIpV6 k := by
  by_contra hno
  have hsplit := splitOn_ipv6Str (Vector.length_toList : k.toList.length = 16)
  have hlen : (hextetsOf k.toList).length = 8 := by rw [length_hextetsOf]; simp
  obtain ⟨-, hthree, -⟩ := partsHextets_compressHextets hlen fun n hn => lt_of_mem_hextetsOf hn
  rw [← hsplit, show ipv6Str k.toList = keyToIpV6 k from rfl, List.splitOn_eq_singleton hno] at hthree
  simp at hthree

/-- With a zone behind it, the text of a key is still read as that key. -/
theorem ipToKeyV6_scoped (k : Ip6) {scope : Text} (hne : scope ≠ []) (hpercent : '%' ∉ scope) (hslash : '/' ∉ scope) :
    ipToKeyV6 (keyToIpV6 k ++ '%' :: scope) = some k := by
  have hlen : k.toList.length = 16 := Vector.length_toList
  have hnot : '%' ∉ keyToIpV6 k := not_mem_ipv6Str hlen (by decide) (by decide)
  have hnoslash : '/' ∉ keyToIpV6 k := not_mem_ipv6Str hlen (by decide) (by decide)
  have hidx : (keyToIpV6 k ++ '%' :: scope).idxOf '%' = (keyToIpV6 k).length := by
    rw [List.idxOf_append_of_notMem hnot, List.idxOf_cons_self, Nat.add_zero]
  have hplain := ipToKeyV6_keyToIpV6 k
  unfold ipToKeyV6 ipv6Packed splitScopeId at hplain ⊢
  rw [if_neg hnoslash, if_neg hnot] at hplain
  have hslash' : '/' ∉ keyToIpV6 k ++ '%' :: scope := by simp [hnoslash, hslash]
  -- the scope is what follows the first `%`
  have hdrop : (keyToIpV6 k ++ '%' :: scope).drop ((keyToIpV6 k).length + 1) = scope := by
    rw [List.drop_append, List.drop_eq_nil_of_le (Nat.le_succ _), List.nil_append, Nat.add_sub_cancel_left]
    rfl
  rw [if_neg hslash', if_pos (by simp), hidx]
  dsimp only
  rw [hdrop, if_neg (not_or.2 ⟨hne, hpercent⟩), List.take_left']
  · exact hplain
  · rfl

/-- What is read as an IPv6 address has a colon, -/
theorem colon_of_ipToKeyV6 {t : Text} {k : Ip6} (h : ipToKeyV6 t = some k) : ':' ∈ t := by
  unfold ipToKeyV6 ipv6Packed splitScopeId at h
  obtain ⟨bytes, hbytes, -⟩ := Option.map_eq_some_iff.1 h
  split at hbytes
  · cases hbytes
  · obtain ⟨addr, haddr, hint⟩ := Option.bind_eq_some_iff.1 hbytes
    have hcolon : ':' ∈ addr := by
      by_contra hno
      unfold ipIntFromString at hint
      rw [List.splitOn_eq_singleton hno] at hint
      split at hint <;> cases hint
    split at haddr
    · dsimp only at haddr
      split at haddr
      · cases haddr
      · cases haddr
        exact List.mem_of_mem_take hcolon
    · cases haddr
      exact hcolon

/-- and is not read as an IPv4 address. -/
theorem ipToKey_of_colon {t : Text} (h : ':' ∈ t) : ipToKey t = none := by
  unfold ipToKey ipv4Packed
  rw [Option.map_eq_none_iff]
  split
  · rfl
  dsimp only
  split
  · rfl
  -- the octet with the colon in it is not made of digits
  obtain ⟨octet, hoctet, hmem⟩ : ∃ octet ∈ t.splitOn '.', ':' ∈ octet := by
    have hjoin : ['.'].intercalate (t.splitOn '.') = t := List.intercalate_splitOn '.'
    rw [← hjoin] at h
    rcases mem_intercalate h with h | h
    · exact absurd h (by decide)
    · exact h
  have hnone : parseOctet octet = none := by
    unfold parseOctet
    have hdigit : octet.all Char.isDigit = false := by
      rw [List.all_eq_false]
      exact ⟨':', hmem, by decide⟩
    rw [if_pos hdigit]
    split <;> rfl
  exact mapM_eq_none hoctet hnone

end FluxGuard
