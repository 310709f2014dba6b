import FluxGuard.Data.JsonValue
import FluxGuard.Proof.Json

/-!
# Any value that is written reads back

* `scanString_dumpsStr`: a string of joined code points survives its escapes, lone halves too.
* `scanValue_dumps`: **a written value is scanned as itself**, whatever the layout.
* `loads_dumps`: so `json.loads` undoes `json.dumps`.
* `writable_of_loads`: what `json.loads` returns can be written again.
-/

namespace FluxGuard

/-! ## Integers -/

/-- A numeral is zero, or does not start with one. -/
theorem toDigits_lead (n : ℕ) : Nat.toDigits 10 n = ['0'] ∨ ∃ c s, Nat.toDigits 10 n = c :: s ∧ c ≠ '0' := by
  rcases Nat.eq_zero_or_pos n with rfl | hn
  · exact Or.inl rfl
  · obtain ⟨d, s, hs, hd, hlt⟩ := head_toDigits (b := 10) (by decide) (by decide) hn
    have key : ∀ d < 10, 0 < d → Nat.digitChar d ≠ '0' := by decide
    exact Or.inr ⟨_, s, hs, key d hlt hd⟩

theorem isDigit_toDigits {n : ℕ} {c : Char} (h : c ∈ Nat.toDigits 10 n) : c.isDigit = true :=
  Nat.isDigit_of_mem_toDigits (by decide) (Nat.le_refl 10) h

theorem scanInt_toDigits (n : ℕ) {t : Text} (ht : NoDigit t) :
    scanInt (Nat.toDigits 10 n ++ t) = some (Nat.toDigits 10 n, t) := by
  have hdigits : ∀ c ∈ Nat.toDigits 10 n, c.isDigit = true := fun c => isDigit_toDigits
  rcases toDigits_lead n with h0 | ⟨c, s, hint, hc⟩
  · rw [h0]
    rfl
  · rw [hint] at hdigits ⊢
    obtain ⟨htake, hdrop⟩ := ht.span fun d hd => hdigits d (List.mem_cons_of_mem c hd)
    rw [List.cons_append, scanInt.eq_3 _ _ hc, if_pos (hdigits c List.mem_cons_self), htake, hdrop]

/-- An integer short enough is read as it was written. -/
theorem scanNumber_dumpsInt {z : ℤ} (hz : (Nat.toDigits 10 z.natAbs).length ≤ 4300) {t : Text} (ht : Delimited t) :
    scanNumber (dumpsInt z ++ t) = some (.int z, t) := by
  have hsign : scanSign (dumpsInt z ++ t) = (decide (z < 0), Nat.toDigits 10 z.natAbs ++ t) := by
    unfold dumpsInt
    by_cases hneg : z < 0
    · rw [if_pos hneg, decide_eq_true hneg]
      rfl
    · rw [if_neg hneg, decide_eq_false hneg, List.nil_append]
      refine scanSign.eq_2 _ fun s hs => ?_
      cases hd : Nat.toDigits 10 z.natAbs with
      | nil => exact absurd hd Nat.toDigits_ne_nil
      | cons c l =>
        rw [hd, List.cons_append] at hs
        have hc : c.isDigit = true := isDigit_toDigits (by rw [hd]; exact List.mem_cons_self)
        rw [(List.cons.inj hs).1] at hc
        exact absurd hc (by decide)
  have hfrac : scanFrac t = ([], t) := scanFrac_of_ne fun s hs => (ht _ s hs).2.1 rfl
  have hexp : scanExp t = (none, t) := scanExp_of_ne fun c s hc => (ht c s hc).2.2
  unfold scanNumber
  simp only [hsign, scanInt_toDigits _ ht.noDigit, hfrac, hexp, Option.bind_eq_bind, Option.bind_some,
    and_self, if_true,
    if_pos hz, Nat.ofDigitChars_ten_toDigits]
  congr 3
  by_cases hneg : z < 0
  · rw [if_pos (decide_eq_true hneg)]
    omega
  · rw [if_neg (by simpa using hneg)]
    omega

/-! ## Strings -/

/-- What a code point is written as: itself, or its two halves. -/
def halves (u : CodePoint) : PyStr :=
  if u.val < 0x10000 then [u] else [Fin.ofNat 0x110000 (highHalf u.val), Fin.ofNat 0x110000 (lowHalf u.val)]

/-- A code point is a character or a half of one. -/
theorem CodePoint.cases (u : CodePoint) : (∃ c : Char, u = CodePoint.ofChar c) ∨ isHigh u ∨ isLow u := by
  by_cases hvalid : u.val.isValidChar
  · refine Or.inl ⟨Char.ofNat u.val, Fin.ext ?_⟩
    show u.val = (Char.ofNat u.val).toNat
    rw [Char.toNat_ofNat, if_pos hvalid]
  · have hlt := u.isLt
    unfold Nat.isValidChar at hvalid
    unfold isHigh isLow
    omega

theorem scanUnits_escape (u : CodePoint) (s : Text) :
    scanUnits (escapeChar u ++ s) = consUnits (halves u) (scanUnits s) := by
  rcases u.cases with ⟨c, rfl⟩ | hhalf
  · exact scanUnits_escapeChar c s
  -- a lone half is written as one escape
  · have hrange : 0xd800 ≤ u.val ∧ u.val ≤ 0xdfff := by
      unfold isHigh isLow at hhalf
      omega
    have hescape : escapeChar u = escapeUnit u.val := by
      unfold escapeChar
      split
      all_goals first | omega | skip
      rw [if_neg (by omega), if_pos (by omega)]
    have hself : Fin.ofNat 0x110000 u.val = u := Fin.ext (Nat.mod_eq_of_lt u.isLt)
    rw [hescape, scanUnits_escapeUnit (by omega), hself, halves, if_pos (by omega)]
    rfl

/-- A string is read unit by unit. -/
theorem scanUnits_dumpsStr (k : PyStr) (s : Text) :
    scanUnits (k.flatMap escapeChar ++ s) = consUnits (k.flatMap halves) (scanUnits s) := by
  induction k with
  | nil => cases h : scanUnits s <;> simp [consUnits, h]
  | cons u k ih => rw [List.flatMap_cons, List.append_assoc, scanUnits_escape, ih, consUnits_append, List.flatMap_cons]

theorem joinSurrogates_of_not_low {h : CodePoint} {us : PyStr} (hl : ∀ l s, us = l :: s → ¬ (isHigh h ∧ isLow l)) :
    joinSurrogates (h :: us) = h :: joinSurrogates us := by
  cases us with
  | nil => rfl
  | cons l us =>
    rw [joinSurrogates]
    exact if_neg (hl l us rfl)

/-- The halves of a code point start with no second half, unless it is one. -/
theorem halves_head (u : CodePoint) : ∃ h s, halves u = h :: s ∧ (isLow h → isLow u) := by
  unfold halves
  split
  · exact ⟨u, [], rfl, id⟩
  · have hlt := u.isLt
    refine ⟨_, _, rfl, fun hlow => ?_⟩
    unfold isLow at hlow
    rw [CodePoint.val_ofNat (by unfold highHalf; omega)] at hlow
    unfold highHalf at hlow
    omega

/-- In a joined string the units are joined back. -/
theorem joinSurrogates_halves {k : PyStr} (h : Joined k) : joinSurrogates (k.flatMap halves) = k := by
  induction k with
  | nil => rfl
  | cons u k ih =>
    have hk : Joined k := List.IsChain.tail h
    rw [List.flatMap_cons]
    by_cases hbig : u.val < 0x10000
    -- itself: what comes next is no second half that would join it
    · have hu : halves u = [u] := if_pos hbig
      rw [hu, List.singleton_append, joinSurrogates_of_not_low, ih hk]
      intro l s hl hpair
      cases k with
      | nil => cases hl
      | cons v k =>
        obtain ⟨w, t, hv, hlow⟩ := halves_head v
        rw [List.flatMap_cons, hv, List.cons_append] at hl
        rw [← (List.cons.inj hl).1] at hpair
        exact (List.isChain_cons_cons.1 h).1 ⟨hpair.1, hlow hpair.2⟩
    · have hu : halves u = [Fin.ofNat 0x110000 (highHalf u.val), Fin.ofNat 0x110000 (lowHalf u.val)] := if_neg hbig
      have hlt := u.isLt
      have hhigh := CodePoint.val_ofNat (n := highHalf u.val) (by unfold highHalf; omega)
      have hlow := CodePoint.val_ofNat (n := lowHalf u.val) (by unfold lowHalf; omega)
      have hjoin : 0x10000 + (highHalf u.val - 0xd800) * 0x400 + (lowHalf u.val - 0xdc00) = u.val := by
        unfold highHalf lowHalf
        omega
      rw [hu, List.cons_append, List.cons_append, List.nil_append, joinSurrogates, hhigh, hlow,
        if_pos (by unfold highHalf lowHalf; omega), hjoin, ih hk]
      exact congrArg (· :: k) (Fin.ext (Nat.mod_eq_of_lt hlt))

/-- **A string survives its escapes.** -/
theorem scanString_dumpsStr {k : PyStr} (h : Joined k) (t : Text) :
    scanString (k.flatMap escapeChar ++ ('"' :: t)) = some (k, t) := by
  unfold scanString
  rw [scanUnits_dumpsStr]
  show Option.map _ (some (k.flatMap halves ++ [], t)) = _
  rw [List.append_nil, Option.map_some, joinSurrogates_halves h]

/-- A pair of halves is a character beyond the basic plane. -/
theorem val_pair {h l : CodePoint} (hh : isHigh h) (hl : isLow l) :
    0x10000 ≤ (Fin.ofNat 0x110000 (0x10000 + (h.val - 0xd800) * 0x400 + (l.val - 0xdc00))).val := by
  unfold isHigh at hh
  unfold isLow at hl
  rw [CodePoint.val_ofNat (by omega)]
  omega

/-- A low surrogate at the head was there before. -/
theorem head_joinSurrogates {u w : CodePoint} {us s : PyStr} (h : joinSurrogates (u :: us) = w :: s)
    (hw : isLow w) : w = u := by
  cases us with
  | nil => exact (List.cons.inj h).1.symm
  | cons l us =>
    rw [joinSurrogates] at h
    split at h
    · rename_i hpair
      have hbig := val_pair hpair.1 hpair.2
      rw [(List.cons.inj h).1] at hbig
      unfold isLow at hw
      omega
    · exact (List.cons.inj h).1.symm

/-- What is scanned of a string is joined. -/
theorem joined_joinSurrogates (us : PyStr) : Joined (joinSurrogates us) := by
  induction us using joinSurrogates.induct with
  | case1 => exact List.isChain_nil
  | case2 u => exact List.isChain_singleton u
  | case3 h l s hpair ih =>
    rw [joinSurrogates, if_pos hpair]
    refine List.IsChain.cons ih ?_
    rintro v - ⟨hhigh, -⟩
    have hbig := val_pair hpair.1 hpair.2
    unfold isHigh at hhigh
    omega
  | case4 h l s hpair ih =>
    rw [joinSurrogates, if_neg hpair]
    refine List.IsChain.cons ih ?_
    rintro v hv ⟨hhigh, hlow⟩
    cases hs : joinSurrogates (l :: s) with
    | nil =>
      rw [hs] at hv
      cases hv
    | cons w t =>
      rw [hs] at hv
      cases hv
      rw [head_joinSurrogates hs hlow] at hlow
      exact hpair ⟨hhigh, hlow⟩

/-- A text has no surrogates to join. -/
theorem joined_pyStr (s : Text) : Joined (pyStr s) := by
  have hhigh : ∀ c : Char, ¬ isHigh (CodePoint.ofChar c) := by
    intro c hc
    have hval : (CodePoint.ofChar c).val = c.toNat := rfl
    unfold isHigh at hc
    rcases c.valid with h | h
    · exact absurd (show c.toNat < 0xd800 from h) (by omega)
    · exact absurd (show 0xdfff < c.toNat from h.1) (by omega)
  induction s with
  | nil => exact List.isChain_nil
  | cons c s ih => exact List.IsChain.cons ih fun v _ h => hhigh c h.1

/-! ## Lists of items -/

/-- Blanks, which the scanner skips. -/
def Blank (w : Text) : Prop := ∀ c ∈ w, isWs c = true

theorem skipWs_blank {w : Text} (hw : Blank w) (t : Text) : skipWs (w ++ t) = skipWs t :=
  List.dropWhile_append_of_pos hw

theorem blank_replicate (n : ℕ) : Blank (List.replicate n ' ') := by
  intro c hc
  rw [List.eq_of_mem_replicate hc]
  rfl

theorem Layout.blank_newline (L : Layout) (level : ℕ) : Blank (L.newline level) := by
  unfold Layout.newline
  split
  · intro c hc
    cases hc
  · intro c hc
    rcases List.mem_cons.1 hc with rfl | hc
    · rfl
    · exact blank_replicate _ c hc

/-- A number ends before blanks and before a bracket or a comma. -/
theorem delimited_cons {c : Char} (h : isWs c = true ∨ c = ',' ∨ c = ']' ∨ c = '\x7d') (t : Text) :
    Delimited (c :: t) := by
  intro c' s heq
  cases heq
  rcases h with h | rfl | rfl | rfl
  · have hc : c = ' ' ∨ c = '\t' ∨ c = '\n' ∨ c = '\r' := of_decide_eq_true h
    rcases hc with rfl | rfl | rfl | rfl
    · decide
    · decide
    · decide
    · decide
  · decide
  · decide
  · decide

theorem Blank.delimited {w : Text} (hw : Blank w) {c : Char} (hc : c = ']' ∨ c = '\x7d') (t : Text) :
    Delimited (w ++ c :: t) := by
  cases w with
  | nil => exact delimited_cons (Or.inr (Or.inr hc)) t
  | cons d w => exact delimited_cons (Or.inl (hw d List.mem_cons_self)) _

section Items

variable {α : Type} {item : Scan α} {close : Char}

/-- The text of an item, and what it is scanned to. -/
structure ReadsAs (item : Scan α) (x : Text × α) : Prop where
  head : ∃ c s, x.1 = c :: s ∧ isWs c = false
  scan : ∀ t, Delimited t → item (x.1 ++ t) = some (x.2, t)

theorem ReadsAs.skipWs {x : Text × α} (h : ReadsAs item x) (t : Text) : skipWs (x.1 ++ t) = x.1 ++ t := by
  obtain ⟨c, s, hx, hc⟩ := h.head
  refine skipWs_of_head fun c' s' heq => ?_
  rw [hx, List.cons_append] at heq
  rw [← (List.cons.inj heq).1]
  exact hc

/-- **Items with commas between them** are scanned one after another. -/
theorem scanItems_reads (hclose : close = ']' ∨ close = '\x7d') {gap last : Text} (hgap : Blank gap)
    (hlast : Blank last)
    (t : Text) {xs : List (Text × α)} (hxs : ∀ y ∈ xs, ReadsAs item y) {x : Text × α} (hx : ReadsAs item x) {m : ℕ}
    (hm : xs.length < m) :
    scanItems item close m (x.1 ++ (xs.flatMap (fun y => ',' :: (gap ++ y.1)) ++ (last ++ close :: t))) =
      some (x.2 :: xs.map Prod.snd, t) := by
  obtain ⟨m, rfl⟩ : ∃ m', m = m' + 1 := Nat.exists_eq_succ_of_ne_zero (by omega)
  have hclose' : close ≠ ',' ∧ isWs close = false := by
    rcases hclose with rfl | rfl
    · decide
    · decide
  -- by induction on the items; the last one ends before the bracket, any other before a comma
  induction xs generalizing x m with
  | nil =>
    refine scanItems_close (hx.scan _ (hlast.delimited hclose t)) ?_ m
    rw [skipWs_blank hlast]
    exact skipWs_of_head fun c s hc => (List.cons.inj hc).1 ▸ hclose'.2
  | cons y ys ih =>
    rw [List.forall_mem_cons] at hxs
    rw [List.length_cons] at hm
    rw [List.flatMap_cons, List.cons_append, List.cons_append, List.append_assoc, List.append_assoc]
    rw [scanItems_comma (hx.scan _ (delimited_cons (Or.inr (Or.inl rfl)) _)) rfl hclose'.1.symm m,
      skipWs_blank hgap, hxs.1.skipWs]
    obtain ⟨m, rfl⟩ : ∃ m', m = m' + 1 := Nat.exists_eq_succ_of_ne_zero (by omega)
    rw [ih hxs.2 hxs.1 m (by omega)]
    rfl

end Items

/-! ## Values -/

theorem blank_itemSep (L : Layout) (level : ℕ) : ∃ gap, L.itemSep ++ L.newline level = ',' :: gap ∧ Blank gap := by
  obtain ⟨n, hn⟩ := L.itemSep_eq
  refine ⟨List.replicate n ' ' ++ L.newline level, by rw [hn]; rfl, ?_⟩
  intro c hc
  rcases List.mem_append.1 hc with hc | hc
  · exact blank_replicate n c hc
  · exact L.blank_newline level c hc

/-- What stands between the brackets of a list that is not empty. -/
def Layout.body {α : Type} (L : Layout) (level : ℕ) (text : α → Text) (a : α) (as : List α) : Text :=
  L.newline (level + 1) ++
    (text a ++ (as.flatMap (fun x => L.itemSep ++ L.newline (level + 1) ++ text x) ++ L.newline level))

/-- Further elements come with a separator before each. -/
theorem dumpsElems_eq (L : Layout) (level : ℕ) (vs : List Json) :
    dumpsElems L level vs = vs.flatMap fun v => L.itemSep ++ L.newline level ++ dumpsValue L level v := by
  induction vs with
  | nil => rfl
  | cons v vs ih => rw [dumpsElems, ih, List.flatMap_cons]

/-- So do further members. -/
theorem dumpsPairs_eq (L : Layout) (level : ℕ) (ms : List (PyStr × Json)) :
    dumpsPairs L level ms = ms.flatMap fun m => L.itemSep ++ L.newline level ++ dumpsPair L level m := by
  induction ms with
  | nil => rfl
  | cons m ms ih => rw [dumpsPairs, ih, List.flatMap_cons]

theorem dumpsValue_arr (L : Layout) (level : ℕ) (v : Json) (vs : List Json) :
    dumpsValue L level (.arr (v :: vs)) = '[' :: (L.body level (dumpsValue L (level + 1)) v vs ++ [']']) := by
  rw [dumpsValue, dumpsElems_eq, Layout.body]
  simp only [List.append_assoc]

theorem dumpsValue_obj (L : Layout) (level : ℕ) (m : PyStr × Json) (ms : List (PyStr × Json)) :
    dumpsValue L level (.obj (m :: ms)) = '\x7b' :: (L.body level (dumpsPair L (level + 1)) m ms ++ ['\x7d']) := by
  rw [dumpsValue, dumpsPairs_eq, Layout.body]
  simp only [List.append_assoc]

/-- A value starts with no blank and no closing bracket. -/
theorem dumpsValue_head (L : Layout) (level : ℕ) (v : Json) :
    ∃ c s, dumpsValue L level v = c :: s ∧ isWs c = false ∧ c ≠ ']' := by
  have hnumber : ∀ c : Char, c.isDigit = true → isWs c = false ∧ c ≠ ']' := by
    intro c hc
    refine ⟨(plain_of_isDigit hc).2.2.2.2.2, ?_⟩
    rintro rfl
    exact absurd hc (by decide)
  cases v with
  | null => exact ⟨_, _, rfl, by decide⟩
  | bool b => cases b <;> exact ⟨_, _, rfl, by decide⟩
  | int z =>
    rw [dumpsValue, dumpsInt]
    by_cases hz : z < 0
    · rw [if_pos hz]
      exact ⟨_, _, rfl, by decide⟩
    · rw [if_neg hz, List.nil_append]
      cases hd : Nat.toDigits 10 z.natAbs with
      | nil => exact absurd hd Nat.toDigits_ne_nil
      | cons c s => exact ⟨c, s, rfl, hnumber c (isDigit_toDigits (by rw [hd]; exact List.mem_cons_self))⟩
  | float x =>
    rw [dumpsValue]
    cases x with
    | inf neg => cases neg <;> exact ⟨_, _, rfl, by decide⟩
    | nan => exact ⟨_, _, rfl, by decide⟩
    | finite x =>
      obtain ⟨c, s, hint, hc⟩ := x.shortest.numeral.exists_int
      rw [dumpsFloat, Numeral.text, hint]
      cases x.shortest.numeral.neg with
      | true => exact ⟨_, _, rfl, by decide⟩
      | false => exact ⟨c, _, rfl, hnumber c hc⟩
  | str s => exact ⟨_, _, rfl, by decide⟩
  | arr vs => cases vs <;> exact ⟨_, _, rfl, by decide⟩
  | obj ms => cases ms <;> exact ⟨_, _, rfl, by decide⟩

/-- No word starts with a digit, and only one with a sign. -/
theorem scanWord_number {s : Text}
    (h : (∃ c t, s = c :: t ∧ c.isDigit = true) ∨ ∃ c t, s = '-' :: c :: t ∧ c.isDigit = true) :
    scanWord s = none := by
  have hne : ∀ {l c : Char}, c.isDigit = true → l.isDigit = false → (l == c) = false := by
    intro l c hc hl
    rw [beq_eq_false_iff_ne]
    rintro rfl
    rw [hl] at hc
    cases hc
  unfold scanWord words
  rcases h with ⟨c, t, rfl, hc⟩ | ⟨c, t, rfl, hc⟩
  · simp [List.isPrefixOf, hne (l := 'n') hc rfl, hne (l := 't') hc rfl, hne (l := 'f') hc rfl, hne (l := 'N') hc rfl,
      hne (l := 'I') hc rfl, hne (l := '-') hc rfl]
  · simp [List.isPrefixOf, hne (l := 'I') hc rfl]

/-- An integer is read as it was written. -/
theorem scanValue_dumpsInt (n : ℕ) {z : ℤ} (hz : (Nat.toDigits 10 z.natAbs).length ≤ 4300) {t : Text}
    (ht : Delimited t) :
    scanValue (n + 1) (dumpsInt z ++ t) = some (.int z, t) := by
  have hnum := scanNumber_dumpsInt hz ht
  cases hd : Nat.toDigits 10 z.natAbs with
  | nil => exact absurd hd Nat.toDigits_ne_nil
  | cons c s =>
    have hc : c.isDigit = true := isDigit_toDigits (by rw [hd]; exact List.mem_cons_self)
    unfold dumpsInt at hnum ⊢
    by_cases hneg : z < 0
    · rw [if_pos hneg, hd] at hnum ⊢
      have hword : scanWord (['-'] ++ c :: s ++ t) = none := scanWord_number (Or.inr ⟨c, s ++ t, rfl, hc⟩)
      show scanValue (n + 1) ('-' :: (c :: s ++ t)) = _
      rw [scanValue_bare n (by decide)]
      exact (congrArg₂ Option.or hword hnum)
    · rw [if_neg hneg, List.nil_append, hd] at hnum ⊢
      have hword : scanWord (c :: s ++ t) = none := scanWord_number (Or.inl ⟨c, s ++ t, rfl, hc⟩)
      rw [List.cons_append] at hword hnum ⊢
      rw [scanValue_bare n (plain_of_isDigit hc), hword, hnum]
      rfl

/-- After a bracket come the elements. -/
theorem scanValue_bracket (n : ℕ) {s u : Text} (hs : skipWs s = u) (h : ∀ t, u ≠ ']' :: t) :
    scanValue (n + 1) ('[' :: s) = (scanItems (scanValue n) ']' u.length u).map fun r => (.arr r.1, r.2) := by
  subst hs
  rw [scanValue.eq_def]
  simp only

/-- After a brace come the members. -/
theorem scanValue_curly (n : ℕ) {s u : Text} (hs : skipWs s = u) (h : ∀ t, u ≠ '\x7d' :: t) :
    scanValue (n + 1) ('\x7b' :: s) = (scanItems (scanMember (scanValue n)) '\x7d' u.length u).map fun r =>
      (.obj r.1, r.2) := by
  subst hs
  rw [scanValue.eq_def]
  simp only

/-- A member is read as its key and its value. -/
theorem reads_pair (L : Layout) (level n : ℕ) {m : PyStr × Json} (hkey : Joined m.1)
    (hvalue : ReadsAs (scanValue n) (dumpsValue L level m.2, m.2)) :
    ReadsAs (scanMember (scanValue n)) (dumpsPair L level m, m) := by
  obtain ⟨k, v⟩ := m
  obtain ⟨g, hsep⟩ := L.keySep_eq
  refine ⟨⟨_, _, rfl, rfl⟩, fun t ht => ?_⟩
  have htext : dumpsPair L level (k, v) ++ t =
      '"' :: (k.flatMap escapeChar ++ ('"' :: (':' :: (List.replicate g ' ' ++ (dumpsValue L level v ++ t))))) := by
    rw [dumpsPair, dumpsStr, hsep]
    simp
  have hcolon : skipWs (':' :: (List.replicate g ' ' ++ (dumpsValue L level v ++ t))) =
      ':' :: (List.replicate g ' ' ++ (dumpsValue L level v ++ t)) := rfl
  have hskip : skipWs (dumpsValue L level v ++ t) = dumpsValue L level v ++ t := hvalue.skipWs t
  have hscan : scanValue n (dumpsValue L level v ++ t) = some (v, t) := hvalue.scan t ht
  show scanMember (scanValue n) (dumpsPair L level (k, v) ++ t) = _
  rw [htext, scanMember, scanString_dumpsStr hkey]
  simp only [Option.bind_some, hcolon, skipWs_blank (blank_replicate g), hskip, hscan, Option.map_some]

section Body

variable {α : Type} {f : α → Text} {l : List α}

theorem length_flatMap_mem {a : α} (h : a ∈ l) : (f a).length ≤ (l.flatMap f).length := by
  induction l with
  | nil => cases h
  | cons b l ih =>
    rw [List.flatMap_cons, List.length_append]
    rcases List.mem_cons.1 h with rfl | h
    · omega
    · have := ih h
      omega

theorem length_flatMap_ge (hf : ∀ a, 0 < (f a).length) : l.length ≤ (l.flatMap f).length := by
  induction l with
  | nil => exact Nat.le_refl 0
  | cons b l ih =>
    have := hf b
    rw [List.flatMap_cons, List.length_append, List.length_cons]
    omega

variable {L : Layout} {level : ℕ} {text : α → Text} {a : α} {as : List α}

theorem Layout.length_body {x : α} (hx : x ∈ a :: as) : (text x).length ≤ (L.body level text a as).length := by
  unfold body
  simp only [List.length_append]
  rcases List.mem_cons.1 hx with rfl | hx
  · omega
  · have := length_flatMap_mem (f := fun x => L.itemSep ++ L.newline (level + 1) ++ text x) hx
    rw [List.length_append] at this
    omega

variable (level) in
/-- **A list in any layout** is scanned behind its bracket. -/
theorem Layout.scan_body {item : Scan α} {close : Char} (hclose : close = ']' ∨ close = '\x7d')
    (h : ∀ x ∈ a :: as, ReadsAs item (text x, x)) (t : Text) :
    ∃ u, skipWs (L.body level text a as ++ close :: t) = text a ++ u ∧
      scanItems item close (text a ++ u).length (text a ++ u) = some (a :: as, t) := by
  obtain ⟨gap, hgap, hblank⟩ := blank_itemSep L (level + 1)
  rw [List.forall_mem_cons] at h
  have hmore : as.flatMap (fun x => L.itemSep ++ L.newline (level + 1) ++ text x) =
      (as.map fun x => (text x, x)).flatMap fun y => ',' :: (gap ++ y.1) := by
    rw [hgap, List.flatMap_map]
    rfl
  refine ⟨(as.map fun x => (text x, x)).flatMap (fun y => ',' :: (gap ++ y.1)) ++
    (L.newline level ++ close :: t), ?_, ?_⟩
  · unfold body
    rw [hmore, List.append_assoc, skipWs_blank (L.blank_newline _), List.append_assoc, List.append_assoc]
    exact h.1.skipWs _
  · have hlen := length_flatMap_ge (f := fun y : Text × α => ',' :: (gap ++ y.1)) (fun _ => Nat.succ_pos _)
      (l := as.map fun x => (text x, x))
    rw [scanItems_reads hclose hblank (L.blank_newline level) t (List.forall_mem_map.2 h.2) h.1, List.map_map]
    · exact congrArg (fun l => some (a :: l, t)) (List.map_id as)
    · simp only [List.length_append, List.length_cons]
      omega

end Body

theorem dumpsPair_head (L : Layout) (level : ℕ) (m : PyStr × Json) : ∃ s, dumpsPair L level m = '"' :: s := by
  obtain ⟨k, v⟩ := m
  exact ⟨_, rfl⟩

/-- To read a value as it was written is to read it at its place. -/
theorem reads_of_scan {L : Layout} {level n : ℕ} {v : Json}
    (h : ∀ t, Delimited t → scanValue n (dumpsValue L level v ++ t) = some (v, t)) :
    ReadsAs (scanValue n) (dumpsValue L level v, v) := by
  obtain ⟨c, s, hhead, hc, -⟩ := dumpsValue_head L level v
  exact ⟨⟨c, s, hhead, hc⟩, h⟩

/-- **A written value is scanned as itself**, whatever its layout. -/
theorem reads_dumpsValue (L : Layout) {v : Json} (hv : v.Writable) (level : ℕ) {n : ℕ}
    (hn : (dumpsValue L level v).length < n) :
    ReadsAs (scanValue n) (dumpsValue L level v, v) := by
  refine reads_of_scan ?_
  obtain ⟨n, rfl⟩ : ∃ n', n = n' + 1 := Nat.exists_eq_succ_of_ne_zero (by omega)
  -- by induction on the value; what is inside a bracket is shorter by the bracket
  induction hv generalizing level n with
  | null => exact fun t _ => rfl
  | bool b =>
    intro t _
    cases b <;> rfl
  | int h => exact fun t ht => scanValue_dumpsInt n h ht
  | float x => exact fun t ht => scanValue_dumpsFloat n x ht
  | @str s h =>
    intro t _
    show scanValue (n + 1) ('"' :: (s.flatMap escapeChar ++ ['"'] ++ t)) = _
    rw [scanValue, List.append_assoc, List.singleton_append, scanString_dumpsStr h]
    rfl
  | @arr vs h ih =>
    intro t _
    cases vs with
    | nil => rfl
    | cons v vs =>
      have hreads : ∀ w ∈ v :: vs, ReadsAs (scanValue n) (dumpsValue L (level + 1) w, w) := by
        intro w hw
        have hlt : (dumpsValue L (level + 1) w).length ≤ (L.body level (dumpsValue L (level + 1)) v vs).length :=
          L.length_body hw
        rw [dumpsValue_arr, List.length_cons, List.length_append, List.length_singleton] at hn
        obtain ⟨n, rfl⟩ : ∃ n', n = n' + 1 := Nat.exists_eq_succ_of_ne_zero (by omega)
        exact reads_of_scan (ih w hw (level + 1) n (by omega))
      obtain ⟨u, hskip, hitems⟩ := L.scan_body level (Or.inl rfl) hreads t
      have hopen : ∀ r, dumpsValue L (level + 1) v ++ u ≠ ']' :: r := by
        obtain ⟨c, s, hc, -, hne⟩ := dumpsValue_head L (level + 1) v
        intro r hr
        rw [hc, List.cons_append] at hr
        exact hne (List.cons.inj hr).1
      rw [dumpsValue_arr, List.cons_append, List.append_assoc, List.singleton_append,
        scanValue_bracket n hskip hopen, hitems]
      rfl
  | @obj ms hkeys h ih =>
    intro t _
    cases ms with
    | nil => rfl
    | cons m ms =>
      have hreads : ∀ p ∈ m :: ms, ReadsAs (scanMember (scanValue n)) (dumpsPair L (level + 1) p, p) := by
        intro p hp
        have hlt : (dumpsPair L (level + 1) p).length ≤ (L.body level (dumpsPair L (level + 1)) m ms).length :=
          L.length_body hp
        have hpair : (dumpsValue L (level + 1) p.2).length ≤ (dumpsPair L (level + 1) p).length := by
          rw [dumpsPair, List.length_append]
          omega
        rw [dumpsValue_obj, List.length_cons, List.length_append, List.length_singleton] at hn
        obtain ⟨n, rfl⟩ : ∃ n', n = n' + 1 := Nat.exists_eq_succ_of_ne_zero (by omega)
        exact reads_pair L (level + 1) _ (hkeys p hp) (reads_of_scan (ih p hp (level + 1) n (by omega)))
      obtain ⟨u, hskip, hitems⟩ := L.scan_body level (Or.inr rfl) hreads t
      have hopen : ∀ r, dumpsPair L (level + 1) m ++ u ≠ '\x7d' :: r := by
        obtain ⟨s, hs⟩ := dumpsPair_head L (level + 1) m
        intro r hr
        rw [hs, List.cons_append] at hr
        exact absurd (List.cons.inj hr).1 (by decide)
      rw [dumpsValue_obj, List.cons_append, List.append_assoc, List.singleton_append,
        scanValue_curly n hskip hopen, hitems]
      rfl

/-- **`json.loads` undoes `json.dumps`.** -/
theorem loads_dumps (L : Layout) {v : Json} (hv : v.Writable) : loads (dumps L v) = some v := by
  have hreads := reads_dumpsValue L hv 0 (n := (dumps L v).length + 1) (Nat.lt_succ_self _)
  have hskip := hreads.skipWs []
  have hscan := hreads.scan [] fun c s h => (nomatch h)
  rw [List.append_nil] at hskip hscan
  unfold loads
  show (scanValue ((dumps L v).length + 1) (skipWs (dumpsValue L 0 v)) >>= _) = _
  rw [hskip, hscan]
  rfl

/-! ## What is read can be written -/

theorem ofDigitChars_lt {l : Text} (hl : ∀ c ∈ l, c.isDigit = true) (n : ℕ) :
    Nat.ofDigitChars 10 l n < 10 ^ l.length * (n + 1) := by
  induction l generalizing n with
  | nil => simp
  | cons c l ih =>
    rw [List.forall_mem_cons] at hl
    have hc : c.toNat - '0'.toNat ≤ 9 := by
      have h9 : c.toNat ≤ 57 := (Char.isDigit_iff_toNat.1 hl.1).2
      show c.toNat - 48 ≤ 9
      omega
    rw [Nat.ofDigitChars_cons, List.length_cons, Nat.pow_succ, Nat.mul_assoc]
    calc Nat.ofDigitChars 10 l (10 * n + (c.toNat - '0'.toNat))
        < 10 ^ l.length * (10 * n + (c.toNat - '0'.toNat) + 1) := ih hl.2 _
      _ ≤ 10 ^ l.length * (10 * (n + 1)) := Nat.mul_le_mul_left _ (by omega)

theorem scanInt_digits {s int r : Text} (h : scanInt s = some (int, r)) : int ≠ [] ∧ ∀ c ∈ int, c.isDigit = true := by
  unfold scanInt at h
  split at h
  · cases h
  · cases h
    exact ⟨by simp, by simp⟩
  · split at h
    · rename_i c s _ hc
      cases h
      refine ⟨by simp, ?_⟩
      intro d hd
      rcases List.mem_cons.1 hd with rfl | hd
      · exact hc
      · exact List.mem_takeWhile_imp hd
    · cases h

/-- A number that was read can be written. -/
theorem writable_of_scanNumber {s : Text} {v : Json} {r : Text} (h : scanNumber s = some (v, r)) : v.Writable := by
  unfold scanNumber at h
  simp only [Option.bind_eq_bind, Option.bind_eq_some_iff] at h
  obtain ⟨⟨int, s₁⟩, hint, h⟩ := h
  simp only at h
  split at h
  · split at h
    · rename_i hlen
      rw [← (Prod.mk.inj (Option.some.inj h)).1]
      obtain ⟨hne, hdigits⟩ := scanInt_digits hint
      have hlt := ofDigitChars_lt hdigits 0
      rw [Nat.zero_add, Nat.mul_one] at hlt
      refine .int (le_trans (Nat.toDigits_length 10 _ int.length (List.length_pos_iff.2 hne) ?_) hlen)
      split
      · rw [Int.natAbs_neg, Int.natAbs_natCast]
        exact hlt
      · rw [Int.natAbs_natCast]
        exact hlt
    · cases h
  · rw [← (Prod.mk.inj (Option.some.inj h)).1]
    exact .float _

/-- So can a word. -/
theorem writable_of_scanWord {s : Text} {v : Json} {r : Text} (h : scanWord s = some (v, r)) : v.Writable := by
  unfold scanWord at h
  obtain ⟨w, hw, heq⟩ := Option.map_eq_some_iff.1 h
  have hmem := List.mem_of_find?_eq_some hw
  rw [← (Prod.mk.inj heq).1]
  simp only [words, List.mem_cons, List.not_mem_nil, or_false] at hmem
  rcases hmem with rfl | rfl | rfl | rfl | rfl | rfl
  · exact .null
  · exact .bool true
  · exact .bool false
  · exact .float _
  · exact .float _
  · exact .float _

/-- What holds of every item holds of the list. -/
theorem scanItems_forall {α : Type} {item : Scan α} {close : Char} {P : α → Prop}
    (hitem : ∀ s a r, item s = some (a, r) → P a)
    {n : ℕ} {s : Text} {l : List α} {r : Text} (h : scanItems item close n s = some (l, r)) : ∀ a ∈ l, P a := by
  induction n generalizing s l r with
  | zero => cases h
  | succ n ih =>
    rw [scanItems] at h
    obtain ⟨⟨a, u⟩, ha, h⟩ := Option.bind_eq_some_iff.1 h
    simp only at h
    split at h
    · cases h
    · split at h
      · cases h
        exact List.forall_mem_singleton.2 (hitem s a u ha)
      · split at h
        · obtain ⟨⟨l', r'⟩, hl, heq⟩ := Option.map_eq_some_iff.1 h
          cases heq
          exact List.forall_mem_cons.2 ⟨hitem s a u ha, ih hl⟩
        · cases h

/-- A string that was read has its surrogates joined. -/
theorem joined_of_scanString {s : Text} {k : PyStr} {r : Text} (h : scanString s = some (k, r)) : Joined k := by
  obtain ⟨⟨us, r'⟩, -, heq⟩ := Option.map_eq_some_iff.1 h
  cases heq
  exact joined_joinSurrogates us

/-- So any value that was read can be written. -/
theorem writable_of_scanValue {n : ℕ} {s : Text} {v : Json} {r : Text} (h : scanValue n s = some (v, r)) :
    v.Writable := by
  induction n generalizing s v r with
  | zero => cases h
  | succ n ih =>
    rw [scanValue.eq_def] at h
    simp only at h
    split at h
    · obtain ⟨⟨k, r'⟩, hk, heq⟩ := Option.map_eq_some_iff.1 h
      cases heq
      exact .str (joined_of_scanString hk)
    · split at h
      · cases h
        exact .obj (by simp) (by simp)
      · obtain ⟨⟨ms, r'⟩, hms, heq⟩ := Option.map_eq_some_iff.1 h
        cases heq
        have hmember : ∀ t (m : PyStr × Json) u, scanMember (scanValue n) t = some (m, u) → Joined m.1 ∧
            m.2.Writable := by
          intro t m u hm
          unfold scanMember at hm
          split at hm
          · obtain ⟨⟨k, t'⟩, hk, hm⟩ := Option.bind_eq_some_iff.1 hm
            simp only at hm
            split at hm
            · obtain ⟨⟨v, t''⟩, hv, heq⟩ := Option.map_eq_some_iff.1 hm
              cases heq
              exact ⟨joined_of_scanString hk, ih hv⟩
            · cases hm
          · cases hm
        have hall := scanItems_forall hmember hms
        exact .obj (fun m hm => (hall m hm).1) fun m hm => (hall m hm).2
    · split at h
      · cases h
        exact .arr (by simp)
      · obtain ⟨⟨vs, r'⟩, hvs, heq⟩ := Option.map_eq_some_iff.1 h
        cases heq
        exact .arr (scanItems_forall (fun t v u => ih) hvs)
    · rcases Option.or_eq_some_iff.1 h with h | ⟨-, h⟩
      · exact writable_of_scanWord h
      · exact writable_of_scanNumber h

/-- **What `json.loads` returns can be written**, and so is what it writes back to. -/
theorem writable_of_loads {s : Text} {v : Json} (h : loads s = some v) : v.Writable := by
  unfold loads at h
  obtain ⟨⟨v', r⟩, hv, h⟩ := Option.bind_eq_some_iff.1 h
  simp only at h
  split at h
  · cases h
    exact writable_of_scanValue hv
  · cases h

end FluxGuard
