import FluxGuard.Proof.JsonValue

/-!
# What is read does not depend on what follows

A scanner that has read a value off a text reads the same value when more text is put behind it,
unless the value is a number that the new text could continue.

* `scanNumber_append`, `scanWord_append`, `scanItems_append`: the parts.
* `scanValue_append`: **a value that is closed off is read as before.**
* `loads_append`: a text that ends with its value loads as before exactly if blanks follow.
* `loads_cut`: so a value inside brackets that is cut short does not load.
-/

namespace FluxGuard

/-- A rest that ends the value before it. -/
def Ended (r : Text) : Prop := ∃ c t, r = c :: t ∧ (isWs c = true ∨ c = ',' ∨ c = ']' ∨ c = '\x7d')

theorem Ended.ne_nil {r : Text} (h : Ended r) : r ≠ [] := by
  obtain ⟨c, t, rfl, -⟩ := h
  exact List.cons_ne_nil c t

theorem Ended.delimited {r : Text} (h : Ended r) : Delimited r := by
  obtain ⟨c, t, rfl, hc⟩ := h
  exact delimited_cons hc t

/-- What stops the blanks behind a value has ended it. -/
theorem ended_of_skipWs {r t : Text} {c : Char} (hr : skipWs r = c :: t)
    (hc : c = ',' ∨ c = ']' ∨ c = '\x7d') : Ended r := by
  cases r with
  | nil => cases hr
  | cons d r =>
    unfold skipWs at hr
    rw [List.dropWhile_cons] at hr
    cases hd : isWs d with
    | true => exact ⟨d, r, rfl, Or.inl hd⟩
    | false =>
      rw [hd, if_neg Bool.false_ne_true] at hr
      cases hr
      exact ⟨c, t, rfl, Or.inr hc⟩

section Spans

variable {p : Char → Bool} {s q : Text}

/-- A span that stops inside the text stops there in a longer text. -/
theorem dropWhile_append (h : s.dropWhile p ≠ []) : (s ++ q).dropWhile p = s.dropWhile p ++ q := by
  induction s with
  | nil => exact absurd rfl h
  | cons c s ih =>
    rw [List.cons_append, List.dropWhile_cons, List.dropWhile_cons]
    rw [List.dropWhile_cons] at h
    split
    · rename_i hc
      rw [if_pos hc] at h
      exact ih h
    · rfl

theorem takeWhile_append (h : s.dropWhile p ≠ []) : (s ++ q).takeWhile p = s.takeWhile p := by
  induction s with
  | nil => exact absurd rfl h
  | cons c s ih =>
    rw [List.cons_append, List.takeWhile_cons, List.takeWhile_cons]
    rw [List.dropWhile_cons] at h
    split
    · rename_i hc
      rw [if_pos hc] at h
      rw [ih h]
    · rfl

theorem skipWs_append {c : Char} {t : Text} (h : skipWs s = c :: t) : skipWs (s ++ q) = c :: t ++ q := by
  unfold skipWs at h ⊢
  rw [dropWhile_append (by rw [h]; exact List.cons_ne_nil c t), h]

end Spans

/-! ## Numbers -/

theorem ne_nil_of_suffix {r s : Text} (h : r <:+ s) (hr : r ≠ []) : s ≠ [] := by
  rintro rfl
  exact hr (List.suffix_nil.1 h)

theorem scanSign_append {s : Text} (hs : s ≠ []) (q : Text) :
    scanSign (s ++ q) = ((scanSign s).1, (scanSign s).2 ++ q) := by
  unfold scanSign
  split
  · rename_i t heq
    cases s with
    | nil => exact absurd rfl hs
    | cons c s =>
      cases heq
      rfl
  · rename_i hne
    split
    · rename_i t
      exact absurd rfl (hne (t ++ q))
    · rfl

/-- What follows the integer part does not change it. -/
theorem scanInt_append {s int r : Text} (h : scanInt s = some (int, r)) (hr : r ≠ []) (q : Text) :
    scanInt (s ++ q) = some (int, r ++ q) := by
  unfold scanInt at h
  split at h
  · cases h
  · cases h
    rfl
  · rename_i c s hc
    split at h
    · rename_i hdigit
      cases h
      rw [List.cons_append, scanInt.eq_3 _ _ hc, if_pos hdigit, takeWhile_append hr, dropWhile_append hr]
    · cases h

/-- Nor what follows the fraction. -/
theorem scanFrac_append {s : Text} (hr : ∀ t, (scanFrac s).2 ≠ '.' :: t) (hne : (scanFrac s).2 ≠ []) (q : Text) :
    scanFrac (s ++ q) = ((scanFrac s).1, (scanFrac s).2 ++ q) := by
  revert hr hne
  fun_cases scanFrac s with
  | case1 c s hc =>
    intro _ hne
    rw [List.cons_append, List.cons_append, scanFrac.eq_1, if_pos hc, takeWhile_append hne, dropWhile_append hne]
  | case2 c s hc =>
    intro hr _
    exact absurd rfl (hr _)
  | case3 s hs =>
    intro hr hne
    refine (scanFrac_of_ne fun t ht => ?_)
    cases s with
    | nil => exact hne rfl
    | cons c s =>
      cases ht
      exact hr _ rfl

theorem scanExpSign_append {s : Text} (hs : s ≠ []) (q : Text) :
    scanExpSign (s ++ q) = ((scanExpSign s).1, (scanExpSign s).2 ++ q) := by
  cases s with
  | nil => exact absurd rfl hs
  | cons c s =>
    unfold scanExpSign
    split
    · rename_i t heq
      cases heq
      rfl
    · rename_i t heq
      cases heq
      rfl
    · rename_i hminus hplus
      split
      · rename_i t heq
        cases heq
        exact absurd rfl (hminus _)
      · rename_i t heq
        cases heq
        exact absurd rfl (hplus _)
      · rfl

/-- Nor what follows the exponent. -/
theorem scanExp_append {s : Text} (hr : Delimited (scanExp s).2) (hne : (scanExp s).2 ≠ []) (q : Text) :
    scanExp (s ++ q) = ((scanExp s).1, (scanExp s).2 ++ q) := by
  cases s with
  | nil => exact absurd rfl hne
  | cons c s =>
    unfold scanExp at hr hne ⊢
    rw [List.cons_append]
    simp only at hr hne ⊢
    by_cases hc : c = 'e' ∨ c = 'E'
    · rw [if_pos hc] at hr hne ⊢
      rw [if_pos hc]
      by_cases hdigits : (scanExpSign s).2.takeWhile Char.isDigit = []
      · rw [if_pos hdigits] at hr
        rcases hc with rfl | rfl
        · exact absurd rfl (hr _ _ rfl).2.2.1
        · exact absurd rfl (hr _ _ rfl).2.2.2
      · rw [if_neg hdigits] at hne ⊢
        have hs : s ≠ [] := by
          rintro rfl
          exact hdigits rfl
        rw [scanExpSign_append hs, takeWhile_append hne, dropWhile_append hne, if_neg hdigits]
    · rw [if_neg hc, if_neg hc]
      rfl

/-- Nor what follows the number. -/
theorem scanNumber_append {s : Text} {v : Json} {r : Text} (h : scanNumber s = some (v, r)) (hr : Ended r) (q : Text) :
    scanNumber (s ++ q) = some (v, r ++ q) := by
  unfold scanNumber at h ⊢
  simp only [Option.bind_eq_bind] at h ⊢
  obtain ⟨⟨int, s₁⟩, hint, h⟩ := Option.bind_eq_some_iff.1 h
  simp only at h
  -- what is left at the end is left by the exponent, and so by every part
  have hrest : (scanExp (scanFrac s₁).2).2 = r := by
    split at h
    · split at h
      · exact (Prod.mk.inj (Option.some.inj h)).2
      · cases h
    · exact (Prod.mk.inj (Option.some.inj h)).2
  have hexp : (scanExp (scanFrac s₁).2).2 ≠ [] := hrest ▸ hr.ne_nil
  have hfrac : (scanFrac s₁).2 ≠ [] := ne_nil_of_suffix (scanExp_suffix _) hexp
  have hs₁ : s₁ ≠ [] := ne_nil_of_suffix (scanFrac_suffix _) hfrac
  have hs : s ≠ [] := ne_nil_of_suffix (scanSign_suffix _) (ne_nil_of_suffix (scanInt_suffix hint) hs₁)
  have hdot : ∀ t, (scanFrac s₁).2 ≠ '.' :: t := by
    intro t ht
    rw [ht] at hrest
    exact (hr.delimited _ _ hrest.symm).2.1 rfl
  rw [scanSign_append hs]
  simp only [scanInt_append hint hs₁, Option.bind_some, scanFrac_append hdot hfrac,
    scanExp_append (hrest ▸ hr.delimited) hexp]
  rw [hrest] at h ⊢
  split at h
  · rename_i hplain
    rw [if_pos hplain]
    split at h
    · rename_i hlen
      rw [if_pos hlen]
      rw [← (Prod.mk.inj (Option.some.inj h)).1]
    · cases h
  · rename_i hplain
    rw [if_neg hplain]
    rw [← (Prod.mk.inj (Option.some.inj h)).1]

/-! ## Words and strings -/

/-- What follows a string does not change it. -/
theorem scanString_append {s : Text} {k : PyStr} {r : Text} (h : scanString s = some (k, r)) (q : Text) :
    scanString (s ++ q) = some (k, r ++ q) := by
  obtain ⟨⟨us, r'⟩, hus, heq⟩ := Option.map_eq_some_iff.1 h
  cases heq
  unfold scanString
  rw [scanUnits_append hus]
  rfl

/-- The words differ in their first character. -/
theorem scanWord_append {s : Text} {v : Json} {r : Text} (h : scanWord s = some (v, r)) (q : Text) :
    scanWord (s ++ q) = some (v, r ++ q) := by
  unfold scanWord at h ⊢
  obtain ⟨w, hw, heq⟩ := Option.map_eq_some_iff.1 h
  have hmem := List.mem_of_find?_eq_some hw
  have hprefix : w.1.isPrefixOf s = true := List.find?_some (p := fun w : Text × Json => w.1.isPrefixOf s) hw
  obtain ⟨t, rfl⟩ := List.isPrefixOf_iff_prefix.1 hprefix
  rw [List.drop_left] at heq
  cases heq
  simp only [words, List.mem_cons, List.not_mem_nil, or_false] at hmem
  rcases hmem with rfl | rfl | rfl | rfl | rfl | rfl
  all_goals simp [words, List.isPrefixOf]

/-- A number starts with a digit, or with its sign and a digit. -/
theorem scanNumber_head {s : Text} {v : Json} {r : Text} (h : scanNumber s = some (v, r)) :
    (∃ c t, s = c :: t ∧ c.isDigit = true) ∨ ∃ c t, s = '-' :: c :: t ∧ c.isDigit = true := by
  unfold scanNumber at h
  simp only [Option.bind_eq_bind] at h
  obtain ⟨⟨int, s₁⟩, hint, -⟩ := Option.bind_eq_some_iff.1 h
  have hhead : ∃ c t, (scanSign s).2 = c :: t ∧ c.isDigit = true := by
    unfold scanInt at hint
    split at hint
    · cases hint
    · rename_i t heq
      exact ⟨'0', t, heq, rfl⟩
    · rename_i c t _ heq
      split at hint
      · rename_i hc
        exact ⟨c, t, heq, hc⟩
      · cases hint
  obtain ⟨c, t, hs, hc⟩ := hhead
  unfold scanSign at hs
  split at hs
  · exact Or.inr ⟨c, t, congrArg ('-' :: ·) hs, hc⟩
  · exact Or.inl ⟨c, t, hs, hc⟩

/-! ## Values -/

/-- What `item` reads and ends, `item'` reads in front of any other text. -/
def Extends {α : Type} (item item' : Scan α) : Prop :=
  ∀ s a r, item s = some (a, r) → Ended r → ∀ q, item' (s ++ q) = some (a, r ++ q)

section Items

variable {α : Type} {item item' : Scan α} {close : Char}

/-- What follows a list of items does not change it. -/
theorem scanItems_append (hclose : close = ']' ∨ close = '\x7d') (hitem : Extends item item') (hnil : item [] = none)
    {n m : ℕ} (hnm : n ≤ m) {s : Text}
    {l : List α} {r : Text} (h : scanItems item close n s = some (l, r)) (q : Text) :
    scanItems item' close m (s ++ q) = some (l, r ++ q) := by
  induction n generalizing m s l r with
  | zero => cases h
  | succ n ih =>
    obtain ⟨m, rfl⟩ : ∃ m', m = m' + 1 := Nat.exists_eq_succ_of_ne_zero (by omega)
    rw [scanItems] at h
    obtain ⟨⟨a, u⟩, ha, h⟩ := Option.bind_eq_some_iff.1 h
    simp only at h
    split at h
    · cases h
    · rename_i c t hskip
      split at h
      -- the last item
      · rename_i hc
        cases h
        have hended : Ended u := ended_of_skipWs hskip (Or.inr (hc ▸ hclose))
        refine scanItems_close (hitem s a u ha hended q) ?_ m
        rw [skipWs_append hskip, hc]
        rfl
      · split at h
        · rename_i hne hc
          subst hc
          have hended : Ended u := ended_of_skipWs hskip (Or.inl rfl)
          obtain ⟨⟨l', r'⟩, hl, heq⟩ := Option.map_eq_some_iff.1 h
          cases heq
          rw [scanItems_comma (hitem s a u ha hended q) (skipWs_append hskip) hne]
          have hnext : skipWs (t ++ q) = skipWs t ++ q := by
            cases ht : skipWs t with
            | nil =>
              rw [ht] at hl
              cases n with
              | zero => cases hl
              | succ n =>
                rw [scanItems, hnil] at hl
                cases hl
            | cons c t' => exact skipWs_append ht
          show Option.map _ (scanItems item' close m (skipWs (t ++ q))) = _
          rw [hnext, ih (by omega) hl]
          rfl
        · cases h

end Items

/-- A member is read alike when its value is. -/
theorem scanMember_extends {value value' : Scan Json} (h : Extends value value') (hnil : value [] = none) :
    Extends (scanMember value) (scanMember value') := by
  intro s m r hm hr q
  cases s with
  | nil => cases hm
  | cons c s =>
    unfold scanMember at hm
    split at hm
    · rename_i heq
      cases heq
      obtain ⟨⟨k, u⟩, hk, hm⟩ := Option.bind_eq_some_iff.1 hm
      simp only at hm
      split at hm
      · rename_i t hskip
        obtain ⟨⟨v, r'⟩, hv, heq⟩ := Option.map_eq_some_iff.1 hm
        cases heq
        have hnext : skipWs (t ++ q) = skipWs t ++ q := by
          cases ht : skipWs t with
          | nil =>
            rw [ht, hnil] at hv
            cases hv
          | cons c t' => exact skipWs_append ht
        show (scanString (s ++ q)).bind _ = _
        rw [scanString_append hk]
        simp only [Option.bind_some, skipWs_append hskip]
        show Option.map _ (value' (skipWs (t ++ q))) = _
        rw [hnext, h _ v r' hv hr]
        rfl
      · cases hm
    · cases hm

/-- A value that ends with its own last character. -/
def Bracketed (s : Text) : Prop := ∃ c t, s = c :: t ∧ (c = '"' ∨ c = '[' ∨ c = '\x7b')

/-- Items behind an opening bracket are read the same in front of any text. -/
theorem scanItems_opened {α : Type} {item item' : Scan α} {close : Char} (hclose : close = ']' ∨ close = '\x7d')
    (hext : Extends item item') (hnil : item [] = none) {s : Text} (hopen : ∀ t, skipWs s ≠ close :: t)
    {l : List α} {r : Text}
    (h : scanItems item close (skipWs s).length (skipWs s) = some (l, r)) (q : Text) :
    skipWs (s ++ q) = skipWs s ++ q ∧ (∀ w, skipWs s ++ q ≠ close :: w) ∧
      scanItems item' close (skipWs s ++ q).length (skipWs s ++ q) = some (l, r ++ q) := by
  cases hskip : skipWs s with
  | nil =>
    rw [hskip] at h
    cases h
  | cons c t =>
    rw [hskip] at h hopen
    refine ⟨skipWs_append hskip, ?_, scanItems_append hclose hext hnil ?_ h q⟩
    · intro w hw
      exact hopen t (by rw [(List.cons.inj hw).1])
    · rw [List.length_append]
      omega

theorem scanValue_nil (n : ℕ) : scanValue n [] = none := by
  cases n with
  | zero => rfl
  | succ n => rfl

/-- What is read at one depth is read at a greater one, in front of any text. -/
theorem scanValue_append {n m : ℕ} (hnm : n ≤ m) {s : Text} {v : Json} {r : Text} (h : scanValue n s = some (v, r))
    (hr : Bracketed s ∨ Ended r) (q : Text) : scanValue m (s ++ q) = some (v, r ++ q) := by
  -- by induction on the depth; inside brackets every value is ended by what follows it
  induction n generalizing m s v r q with
  | zero => cases h
  | succ n ih =>
    obtain ⟨m, rfl⟩ : ∃ m', m = m' + 1 := Nat.exists_eq_succ_of_ne_zero (by omega)
    have hitem : Extends (scanValue n) (scanValue m) := fun s v r h hr q => ih (m := m) (by omega) h (Or.inr hr) q
    have hmember : Extends (scanMember (scanValue n)) (scanMember (scanValue m)) :=
      scanMember_extends hitem (scanValue_nil n)
    rw [scanValue.eq_def] at h
    simp only at h
    split at h
    -- a string
    · obtain ⟨⟨k, r'⟩, hk, heq⟩ := Option.map_eq_some_iff.1 h
      cases heq
      rw [List.cons_append, scanValue, scanString_append hk]
      rfl
    -- an object
    · rename_i s
      split at h
      · rename_i t hskip
        cases h
        have hclose : skipWs (s ++ q) = '\x7d' :: (r ++ q) := skipWs_append hskip
        rw [List.cons_append, scanValue.eq_def]
        simp only [hclose]
      · rename_i hopen
        obtain ⟨⟨ms, r'⟩, hms, heq⟩ := Option.map_eq_some_iff.1 h
        cases heq
        obtain ⟨hskip, hnext, hitems⟩ := scanItems_opened (Or.inr rfl) hmember rfl hopen hms q
        rw [List.cons_append, scanValue_curly m hskip hnext, hitems]
        rfl
    -- a list
    · rename_i s
      split at h
      · rename_i t hskip
        cases h
        have hclose : skipWs (s ++ q) = ']' :: (r ++ q) := skipWs_append hskip
        rw [List.cons_append, scanValue.eq_def]
        simp only [hclose]
      · rename_i hopen
        obtain ⟨⟨vs, r'⟩, hvs, heq⟩ := Option.map_eq_some_iff.1 h
        cases heq
        obtain ⟨hskip, hnext, hitems⟩ := scanItems_opened (Or.inl rfl) hitem (scanValue_nil n) hopen hvs q
        rw [List.cons_append, scanValue_bracket m hskip hnext, hitems]
        rfl
    -- a word or a number
    · rename_i hquote hcurly hbracket
      have hended : Ended r := by
        refine hr.resolve_left ?_
        rintro ⟨c, t, rfl, rfl | rfl | rfl⟩
        · exact hquote t rfl
        · exact hbracket t rfl
        · exact hcurly t rfl
      cases s with
      | nil => cases h
      | cons c s =>
        have hbare : ∀ s', scanValue (m + 1) (c :: s') = (scanWord (c :: s')).or (scanNumber (c :: s')) := by
          intro s'
          rw [scanValue.eq_def]
          simp only
          split
          · rename_i heq; exact absurd ((List.cons.inj heq).1 ▸ rfl) (hquote s)
          · rename_i heq; exact absurd ((List.cons.inj heq).1 ▸ rfl) (hcurly s)
          · rename_i heq; exact absurd ((List.cons.inj heq).1 ▸ rfl) (hbracket s)
          · rfl
        rw [List.cons_append, hbare, ← List.cons_append]
        rcases Option.or_eq_some_iff.1 h with h | ⟨hnone, h⟩
        · rw [scanWord_append h]
          rfl
        · have hword : scanWord (c :: s ++ q) = none := by
            refine scanWord_number ((scanNumber_head h).imp ?_ ?_)
            · rintro ⟨d, t, heq, hd⟩
              exact ⟨d, t ++ q, by rw [heq]; rfl, hd⟩
            · rintro ⟨d, t, heq, hd⟩
              exact ⟨d, t ++ q, by rw [heq]; rfl, hd⟩
          rw [hword, scanNumber_append h hended]
          rfl

/-! ## Texts -/

/-- **A text that ends with its value** loads as before exactly if blanks follow it. -/
theorem loads_append {s : Text} {v : Json} (h : loads s = some v) (hs : Bracketed (skipWs s)) (q : Text) :
    loads (s ++ q) = if skipWs q = [] then some v else none := by
  unfold loads at h
  obtain ⟨⟨v', r⟩, hv, h⟩ := Option.bind_eq_some_iff.1 h
  simp only at h
  split at h
  · rename_i hr
    cases h
    have hbracket : Bracketed (skipWs s) := hs
    obtain ⟨c, t, hskip, -⟩ := hs
    have hskip' : skipWs (s ++ q) = skipWs s ++ q := by rw [skipWs_append hskip, hskip]
    have hrest : skipWs (r ++ q) = skipWs q := skipWs_blank (fun c hc => List.dropWhile_eq_nil_iff.1 hr c hc) q
    have hlen : s.length + 1 ≤ (s ++ q).length + 1 := by
      rw [List.length_append]
      omega
    unfold loads
    rw [hskip', scanValue_append hlen hv (Or.inl hbracket)]
    simp only [Option.bind_eq_bind, Option.bind_some, hrest]
  · cases h

/-- **What is cut off before its end does not load.** -/
theorem loads_cut {p q : Text} {v : Json} (h : loads (p ++ q) = some v) (hp : Bracketed p) (hq : skipWs q ≠ []) :
    loads p = none := by
  cases hload : loads p with
  | none => rfl
  | some w =>
    have hskip : skipWs p = p := by
      obtain ⟨c, t, rfl, rfl | rfl | rfl⟩ := hp
      all_goals rfl
    rw [loads_append hload (by rw [hskip]; exact hp), if_neg hq] at h
    cases h

/-- The text of an object ends with its brace. -/
theorem dumps_obj (L : Layout) (ms : List (PyStr × Json)) : ∃ s, dumps L (.obj ms) = '\x7b' :: (s ++ ['\x7d']) := by
  cases ms with
  | nil => exact ⟨[], rfl⟩
  | cons m ms => exact ⟨_, rfl⟩

/-- **No proper prefix of a written object loads.** -/
theorem loads_dumps_cut (L : Layout) {ms : List (PyStr × Json)} (hms : (Json.obj ms).Writable) {p : Text}
    (hp : p <+: dumps L (.obj ms)) (hne : p ≠ dumps L (.obj ms)) : loads p = none := by
  obtain ⟨q, hq⟩ := hp
  obtain ⟨s, hs⟩ := dumps_obj L ms
  cases p with
  | nil => rfl
  | cons c p =>
    have hc : c = '\x7b' := by
      rw [hs] at hq
      exact (List.cons.inj hq).1
    refine loads_cut (q := q) (by rw [hq]; exact loads_dumps L hms) ⟨c, p, rfl, Or.inr (Or.inr hc)⟩ ?_
    -- what is cut off holds the brace
    intro hblank
    have hq0 : q ≠ [] := by
      rintro rfl
      rw [List.append_nil] at hq
      exact hne hq
    have hlast : q.getLast hq0 = '\x7d' := by
      have hsame : (c :: p ++ q).getLast? = ('\x7b' :: (s ++ ['\x7d'])).getLast? := by rw [hq, hs]
      rw [List.getLast?_append_of_ne_nil _ hq0, List.getLast?_cons, List.getLast?_append] at hsame
      simpa [List.getLast?_eq_some_getLast hq0] using hsame
    have hws := List.dropWhile_eq_nil_iff.1 hblank _ (List.getLast_mem hq0)
    rw [hlast] at hws
    cases hws

end FluxGuard
