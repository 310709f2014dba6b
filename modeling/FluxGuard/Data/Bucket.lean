import Mathlib

/-!
# Token buckets over integers

A token bucket of capacity `cap` that earns `rate` tokens per `unit` of time and
pays one token for each request. Its clock arithmetic may wrap modulo `modulus`,
and it credits whole tokens only: what a refill leaves over is forgotten.

* `potential_take`, `potential_wait`: the potential `unit * tokens + phase` falls by
  a whole `unit` with each request and rises by at most `rate` per unit of time.
  Every upper bound on the number of granted requests comes from these two.
* `level_le_window`, `exists_level_eq`: after a run of requests the level is the least,
  over all windows that end there, of `cap` plus the credit of the window minus its
  requests, or what is left of the start.
* `runTakes_nonneg_iff`: so the level never goes below zero exactly when every
  window has at most `cap` plus its credit of requests.
-/

namespace FluxGuard.Bucket

/-- The constants of a token bucket. -/
structure Params where
  rate : ℕ
  unit : ℕ
  modulus : ℕ
  cap : ℤ
  unit_pos : 0 < unit
  modulus_pos : 0 < modulus

/-- The level of a bucket and the time of its last refill. -/
@[ext] structure State where
  tokens : ℤ
  last : ℕ

variable (P : Params)

/-- The part of a token earned since `last`, times `unit`, as wrapping arithmetic
computes it: the clock difference and the product are both modulo `modulus`. -/
def phase (last now : ℕ) : ℕ := (now + (P.modulus - last)) % P.modulus * P.rate % P.modulus

/-- The whole tokens earned since `last`. -/
def refill (last now : ℕ) : ℕ := phase P last now / P.unit

/-- Credit the earned tokens, if there are any. -/
def fill (s : State) (now : ℕ) : State :=
  if refill P s.last now = 0 then s else ⟨min (s.tokens + refill P s.last now) P.cap, now⟩

/-- Credit the earned tokens and pay one. -/
def take (s : State) (now : ℕ) : State :=
  ⟨(fill P s now).tokens - 1, (fill P s now).last⟩

/-- What the bucket holds and what it is due for, in fractions of a token. -/
def potential (s : State) (now : ℕ) : ℤ := P.unit * s.tokens + phase P s.last now

theorem phase_lt (last now : ℕ) : phase P last now < P.modulus := Nat.mod_lt _ P.modulus_pos

variable {P}

/-- Without a wrap the time since the last refill is the difference. -/
theorem gap_eq {last now : ℕ} (h : last ≤ now) (hm : now < P.modulus) :
    (now + (P.modulus - last)) % P.modulus = now - last := by
  rw [show now + (P.modulus - last) = (now - last) + P.modulus by omega, Nat.add_mod_right]
  exact Nat.mod_eq_of_lt (by omega)

/-- At the last refill nothing has been earned yet. -/
theorem phase_self {now : ℕ} (hm : now < P.modulus) : phase P now now = 0 := by
  unfold phase; rw [gap_eq le_rfl hm]; simp

theorem phase_le {last now : ℕ} (h : last ≤ now) (hm : now < P.modulus) :
    phase P last now ≤ (now - last) * P.rate := by
  unfold phase; rw [gap_eq h hm]; exact Nat.mod_le _ _

/-- Without wrapping the phase is the exact product. -/
theorem phase_eq {last now : ℕ} (h : last ≤ now) (hm : now < P.modulus)
    (hr : (now - last) * P.rate < P.modulus) : phase P last now = (now - last) * P.rate := by
  unfold phase; rw [gap_eq h hm, Nat.mod_eq_of_lt hr]

/-- Waiting earns at most the rate. -/
theorem phase_wait {last now now' : ℕ} (h : last ≤ now) (h' : now ≤ now') (hm : now' < P.modulus) :
    phase P last now' ≤ phase P last now + (now' - now) * P.rate := by
  unfold phase
  rw [gap_eq h (by omega), gap_eq (by omega) hm,
    show (now' - last) * P.rate = (now - last) * P.rate + (now' - now) * P.rate by
      rw [← Nat.add_mul]; congr 1; omega]
  rw [Nat.add_mod]
  exact (Nat.mod_le _ _).trans (Nat.add_le_add_left (Nat.mod_le _ _) _)

/-- The whole tokens are part of what has been earned. -/
theorem unit_mul_refill_le (last now : ℕ) : P.unit * refill P last now ≤ phase P last now :=
  Nat.mul_div_le _ _

/-- Where no whole token has been earned, less than one has. -/
theorem phase_lt_unit {last now : ℕ} (h : refill P last now = 0) : phase P last now < P.unit :=
  (Nat.div_eq_zero_iff_lt P.unit_pos).1 h

theorem fill_of_zero {s : State} {now : ℕ} (h : refill P s.last now = 0) : fill P s now = s := if_pos h

theorem fill_of_ne_zero {s : State} {now : ℕ} (h : refill P s.last now ≠ 0) :
    fill P s now = ⟨min (s.tokens + refill P s.last now) P.cap, now⟩ := if_neg h

/-- A request moves the last refill on if there was something to refill. -/
theorem last_take (s : State) (now : ℕ) :
    (take P s now).last = if refill P s.last now = 0 then s.last else now := by
  unfold take fill; split <;> rfl

/-- The tokens after a request, in one formula. -/
theorem tokens_take (s : State) (now : ℕ) :
    (take P s now).tokens =
      (if refill P s.last now = 0 then s.tokens else min (s.tokens + refill P s.last now) P.cap) - 1 := by
  unfold take fill; split <;> rfl

/-- A request at the time of the last refill just pays. -/
theorem take_self {s : State} (hm : s.last < P.modulus) : take P s s.last = ⟨s.tokens - 1, s.last⟩ := by
  have h0 : refill P s.last s.last = 0 := by unfold refill; rw [phase_self hm, Nat.zero_div]
  unfold take
  rw [fill_of_zero h0]

/-- A request costs one token at most. -/
theorem tokens_take_ge {s : State} (h : s.tokens ≤ P.cap) (now : ℕ) :
    s.tokens - 1 ≤ (take P s now).tokens := by
  rw [tokens_take]
  split
  · exact le_rfl
  · have : s.tokens ≤ min (s.tokens + refill P s.last now) P.cap := le_min (by omega) h
    omega

/-- After a request a bucket is never full. -/
theorem tokens_take_lt {s : State} (h : s.tokens < P.cap) (now : ℕ) :
    (take P s now).tokens < P.cap := by
  rw [tokens_take]
  split
  · omega
  · have := min_le_right (s.tokens + refill P s.last now) P.cap
    omega

/-- A refill in time order adds at most what the time since the last one earns. -/
theorem tokens_take_le {s : State} {now : ℕ} (h : s.last ≤ now) (hm : now < P.modulus) :
    (take P s now).tokens + 1 ≤ s.tokens + ((now - s.last) * P.rate / P.unit : ℕ) := by
  have hr : refill P s.last now ≤ (now - s.last) * P.rate / P.unit := Nat.div_le_div_right (phase_le h hm)
  rw [tokens_take]
  split
  · omega
  · have := min_le_left (s.tokens + refill P s.last now) P.cap
    omega

theorem last_take_le {s : State} {now : ℕ} (h : s.last ≤ now) : (take P s now).last ≤ now := by
  rw [last_take]; split <;> omega

/-! ## The potential -/

/-- Over time the potential grows at the rate at most. -/
theorem potential_wait {s : State} {now now' : ℕ} (h : s.last ≤ now) (h' : now ≤ now')
    (hm : now' < P.modulus) :
    potential P s now' ≤ potential P s now + ((now' - now) * P.rate : ℕ) := by
  have := phase_wait h h' hm
  unfold potential
  omega

/-- A request costs a whole unit of potential. -/
theorem potential_take {s : State} {now : ℕ} (hm : now < P.modulus) :
    potential P (take P s now) now + P.unit ≤ potential P s now := by
  have hr := unit_mul_refill_le (P := P) s.last now
  unfold potential
  rw [tokens_take, last_take]
  by_cases h0 : refill P s.last now = 0
  · rw [if_pos h0, if_pos h0]; linarith
  · rw [if_neg h0, if_neg h0, phase_self hm]
    have hmin := min_le_left (s.tokens + refill P s.last now) P.cap
    have hu : (0 : ℤ) ≤ P.unit := Int.natCast_nonneg _
    have hmul := mul_le_mul_of_nonneg_left hmin hu
    have hr' : (P.unit : ℤ) * refill P s.last now ≤ phase P s.last now := by exact_mod_cast hr
    push_cast
    linarith

/-- After a request the bucket is worth at most `cap - 1` tokens, the credit in
its phase included. -/
theorem potential_take_le {s : State} {now : ℕ} (h : s.tokens < P.cap) (hm : now < P.modulus) :
    potential P (take P s now) now ≤ P.unit * (P.cap - 1) := by
  have hu : (0 : ℤ) ≤ P.unit := Int.natCast_nonneg _
  unfold potential
  rw [tokens_take, last_take]
  by_cases h0 : refill P s.last now = 0
  · rw [if_pos h0, if_pos h0]
    have hp : (phase P s.last now : ℤ) < P.unit := by exact_mod_cast phase_lt_unit h0
    have hmul : (P.unit : ℤ) * (s.tokens - 1) ≤ P.unit * (P.cap - 1 - 1) :=
      mul_le_mul_of_nonneg_left (by omega) hu
    linarith
  · rw [if_neg h0, if_neg h0, phase_self hm]
    have hmin := min_le_right (s.tokens + refill P s.last now) P.cap
    have hmul : (P.unit : ℤ) * (min (s.tokens + refill P s.last now) P.cap - 1) ≤ P.unit * (P.cap - 1) :=
      mul_le_mul_of_nonneg_left (by omega) hu
    simpa using hmul

/-! ## Windows of requests -/

/-- `w` requests were granted in a window that started at `t₁`, up to time `τ`: their cost
and the potential that is left came out of a full bucket and the credit since `t₁`. -/
structure Granted (P : Params) (t₁ w : ℕ) (s : State) (τ : ℕ) : Prop where
  start_le : t₁ ≤ τ
  last_le : s.last ≤ τ
  potential_le : P.unit * w + potential P s τ ≤ P.unit * P.cap + ((τ - t₁) * P.rate : ℕ)
  count_le : (P.unit * w : ℤ) ≤ P.unit * P.cap + ((τ - t₁) * P.rate : ℕ)

namespace Granted

variable {t₁ w τ now : ℕ} {s : State}

theorem potential_nonneg {s : State} (h : 0 ≤ s.tokens) (now : ℕ) : 0 ≤ potential P s now :=
  add_nonneg (mul_nonneg (Int.natCast_nonneg _) h) (Int.natCast_nonneg _)

/-- A window opens with a granted request, in a bucket that is worth `cap - 1` at most afterwards. -/
theorem opened (ht : t₁ ≤ now) (hl : s.last ≤ now) (hp : potential P s now + P.unit ≤ P.unit * P.cap)
    (h0 : 0 ≤ s.tokens) : Granted P t₁ 1 s now := by
  have hn := potential_nonneg (P := P) h0 now
  have hd : (0 : ℤ) ≤ ((now - t₁) * P.rate : ℕ) := Int.natCast_nonneg _
  refine ⟨ht, hl, ?_, ?_⟩
  · push_cast at hd ⊢
    linarith
  · push_cast at hd ⊢
    linarith

/-- The first request of a window that the bucket pays. -/
theorem first (ht : t₁ ≤ now) (hl : s.last ≤ now) (hm : now < P.modulus) (hs : s.tokens < P.cap)
    (h0 : 0 ≤ (take P s now).tokens) : Granted P t₁ 1 (take P s now) now :=
  opened ht (last_take_le hl) (by have := potential_take_le hs hm; linarith) h0

/-- The first request of a window that finds no bucket. -/
theorem fresh (ht : t₁ ≤ now) (hm : now < P.modulus) (hc : 1 ≤ P.cap) :
    Granted P t₁ 1 ⟨P.cap - 1, now⟩ now := by
  have hd : (0 : ℤ) ≤ ((now - t₁) * P.rate : ℕ) := Int.natCast_nonneg _
  have hu : (P.unit : ℤ) * 1 ≤ P.unit * P.cap := mul_le_mul_of_nonneg_left hc (Int.natCast_nonneg _)
  refine ⟨ht, le_rfl, ?_, ?_⟩
  · unfold potential
    rw [phase_self hm]
    push_cast at hd ⊢
    linarith
  · push_cast at hd ⊢
    linarith

/-- Between two requests the window earns what the time does. -/
theorem wait (h : Granted P t₁ w s τ) (hn : τ ≤ now) (hm : now < P.modulus) :
    P.unit * w + potential P s now ≤ P.unit * P.cap + ((now - t₁) * P.rate : ℕ) := by
  have h1 := h.potential_le
  have h2 := potential_wait h.last_le hn hm
  have hsum : (now - t₁) * P.rate = (τ - t₁) * P.rate + (now - τ) * P.rate := by
    rw [← Nat.add_mul]; have := h.start_le; congr 1; omega
  rw [hsum]
  push_cast at h1 h2 ⊢
  linarith

/-- A request that costs a unit of potential is granted. -/
theorem spend (h : Granted P t₁ w s τ) (hn : τ ≤ now) (hm : now < P.modulus) {s' : State} (hl : s'.last ≤ now)
    (hp : potential P s' now + P.unit ≤ potential P s now) (h0 : 0 ≤ s'.tokens) : Granted P t₁ (w + 1) s' now := by
  have hw := h.wait hn hm
  have hpos := potential_nonneg (P := P) h0 now
  have := h.start_le
  refine ⟨by omega, hl, ?_, ?_⟩
  · push_cast at hw ⊢
    linarith
  · push_cast at hw ⊢
    linarith

/-- A request that earns no potential is denied. -/
theorem keep (h : Granted P t₁ w s τ) (hn : τ ≤ now) (hm : now < P.modulus) {s' : State} (hl : s'.last ≤ now)
    (hp : potential P s' now ≤ potential P s now) : Granted P t₁ w s' now := by
  have hw := h.wait hn hm
  have hc := h.count_le
  have hle := h.start_le
  have hmono : (τ - t₁) * P.rate ≤ (now - t₁) * P.rate := Nat.mul_le_mul_right _ (by omega)
  have hmono' : (((τ - t₁) * P.rate : ℕ) : ℤ) ≤ ((now - t₁) * P.rate : ℕ) := by exact_mod_cast hmono
  refine ⟨by omega, hl, ?_, ?_⟩
  · linarith
  · linarith

/-- A request that is granted is paid for out of the potential. -/
theorem grant (h : Granted P t₁ w s τ) (hn : τ ≤ now) (hm : now < P.modulus)
    (h0 : 0 ≤ (take P s now).tokens) : Granted P t₁ (w + 1) (take P s now) now :=
  h.spend hn hm (last_take_le (h.last_le.trans hn)) (potential_take hm) h0

/-- A request that is denied changes nothing about what was granted. -/
theorem deny (h : Granted P t₁ w s τ) (hn : τ ≤ now) (hm : now < P.modulus) :
    Granted P t₁ w (take P s now) now := by
  have hu : (0 : ℤ) ≤ P.unit := Int.natCast_nonneg _
  have hp := potential_take (P := P) (s := s) hm
  exact h.keep hn hm (last_take_le (h.last_le.trans hn)) (by linarith)

/-- The number of granted requests is at most the capacity plus the credit of the window. -/
theorem bound (h : Granted P t₁ w s τ) : (w : ℤ) ≤ P.cap + ((τ - t₁) * P.rate / P.unit : ℕ) := by
  have hc := h.count_le
  have hu : (0 : ℤ) < P.unit := by exact_mod_cast P.unit_pos
  have hdiv : ((τ - t₁) * P.rate : ℕ) < P.unit * ((τ - t₁) * P.rate / P.unit + 1) :=
    Nat.lt_mul_div_succ _ P.unit_pos
  have hdiv' : (((τ - t₁) * P.rate : ℕ) : ℤ) < P.unit * (((τ - t₁) * P.rate / P.unit : ℕ) + 1) := by
    exact_mod_cast hdiv
  by_contra hlt
  have hle : P.cap + ((τ - t₁) * P.rate / P.unit : ℕ) + 1 ≤ (w : ℤ) := by omega
  have hmul := mul_le_mul_of_nonneg_left hle hu.le
  linarith

end Granted

/-! ## Capped levels

A level that starts at `c₀`, pays one token for each request and is credited `r n` tokens after
request `n`, up to `cap`. -/

section Level

variable (c₀ cap : ℤ) (r : ℕ → ℕ)

/-- The level that request `n` finds. -/
def level : ℕ → ℤ
  | 0 => c₀
  | n + 1 => min (level n - 1 + r n) cap

/-- The tokens credited before request `n`. -/
def credited (n : ℕ) : ℕ := ∑ i ∈ Finset.range n, r i

variable {c₀ cap r}

theorem credited_succ (n : ℕ) : credited r (n + 1) = credited r n + r n := Finset.sum_range_succ _ _

/-- No level is above the cap. -/
theorem level_le_cap (h : c₀ ≤ cap) (n : ℕ) : level c₀ cap r n ≤ cap := by
  cases n with
  | zero => exact h
  | succ n => exact min_le_right _ _

/-- The level is at most what the start and the credit leave after the requests so far. -/
theorem level_le (n : ℕ) : level c₀ cap r n ≤ c₀ + credited r n - n := by
  induction n with
  | zero => simp [level, credited]
  | succ n ih =>
    have hmin := min_le_left (level c₀ cap r n - 1 + r n) cap
    rw [level, credited_succ]
    push_cast
    omega

/-- The level is at most what a full bucket leaves after the requests of a window. -/
theorem level_le_window (h : c₀ ≤ cap) {i n : ℕ} (hi : i ≤ n) :
    level c₀ cap r n ≤ cap + credited r n - credited r i - (n - i) := by
  induction n, hi using Nat.le_induction with
  | base =>
    have := level_le_cap (r := r) h i
    omega
  | succ n hi ih =>
    have hmin := min_le_left (level c₀ cap r n - 1 + r n) cap
    rw [level, credited_succ]
    push_cast
    omega

/-- One of these bounds is reached. -/
theorem exists_level_eq (n : ℕ) :
    level c₀ cap r n = c₀ + credited r n - n ∨
      ∃ i ≤ n, level c₀ cap r n = cap + credited r n - credited r i - (n - i) := by
  induction n with
  | zero => left; simp [level, credited]
  | succ n ih =>
    rw [level, credited_succ]
    rcases min_choice (level c₀ cap r n - 1 + r n) cap with hm | hm
    · rw [hm]
      rcases ih with ih | ⟨i, hi, ih⟩
      · left
        push_cast
        omega
      · refine Or.inr ⟨i, by omega, ?_⟩
        push_cast
        omega
    · -- a full bucket: the window is the last request alone
      refine Or.inr ⟨n + 1, le_rfl, ?_⟩
      rw [hm, credited_succ]
      push_cast
      omega

/-- **A request finds a token** exactly when the requests before it outnumber neither the start and its
credit nor, in any window, a full bucket and the credit of the window. -/
theorem level_pos_iff (h : c₀ ≤ cap) (n : ℕ) :
    0 < level c₀ cap r n ↔
      (n : ℤ) < c₀ + credited r n ∧ ∀ i ≤ n, (n : ℤ) - i < cap + credited r n - credited r i := by
  constructor
  · intro hpos
    refine ⟨?_, ?_⟩
    · have := @level_le c₀ cap r n
      omega
    · intro i hi
      have := level_le_window (r := r) h hi
      omega
  · rintro ⟨hstart, hwindow⟩
    rcases @exists_level_eq c₀ cap r n with he | ⟨i, hi, he⟩
    · omega
    · have := hwindow i hi
      omega

end Level

/-! ## Runs of requests

Requests at the times `t 0, t 1, …`; the first one finds a full bucket. -/

variable (P) (t : ℕ → ℕ)

/-- The last time credit was given, up to request `n`. -/
def mark : ℕ → ℕ
  | 0 => t 0
  | n + 1 => if refill P (mark n) (t (n + 1)) = 0 then mark n else t (n + 1)

/-- The whole tokens credited up to request `n`. -/
def credit : ℕ → ℕ
  | 0 => 0
  | n + 1 => credit n + refill P (mark P t n) (t (n + 1))

/-- The bucket after request `n`. -/
def runTakes : ℕ → State
  | 0 => ⟨P.cap - 1, t 0⟩
  | n + 1 => take P (runTakes n) (t (n + 1))

variable {P t}

/-- The last refill of a run depends on the times alone. -/
theorem last_runTakes (n : ℕ) : (runTakes P t n).last = mark P t n := by
  induction n with
  | zero => rfl
  | succ n ih => rw [runTakes, last_take, ih, mark]

/-- The tokens of a run, request by request. -/
theorem tokens_runTakes_succ (n : ℕ) :
    (runTakes P t (n + 1)).tokens =
      (if refill P (mark P t n) (t (n + 1)) = 0 then (runTakes P t n).tokens
       else min ((runTakes P t n).tokens + refill P (mark P t n) (t (n + 1))) P.cap) - 1 := by
  rw [runTakes, tokens_take, last_runTakes]

/-- What a run is credited is the sum of its refills. -/
theorem credit_eq_credited (n : ℕ) : credit P t n = credited (fun i => refill P (mark P t i) (t (i + 1))) n := by
  induction n with
  | zero => rfl
  | succ n ih => rw [credit, credited_succ, ih]

theorem tokens_runTakes_lt (n : ℕ) : (runTakes P t n).tokens < P.cap := by
  induction n with
  | zero => simp [runTakes]
  | succ n ih => exact tokens_take_lt ih _

/-- Request `n` finds the capped level of a bucket that starts full. -/
theorem tokens_runTakes (n : ℕ) :
    (runTakes P t n).tokens + 1 = level P.cap P.cap (fun i => refill P (mark P t i) (t (i + 1))) n := by
  induction n with
  | zero => simp [runTakes, level]
  | succ n ih =>
    rw [tokens_runTakes_succ, level, ← ih]
    split
    · rename_i h0
      have := tokens_runTakes_lt (P := P) (t := t) n
      rw [h0, min_eq_left (by push_cast; omega)]
      push_cast
      omega
    · rw [add_sub_cancel_right, sub_add_cancel]

/-- The level is below the room of every window that ends at `n`. -/
theorem tokens_runTakes_le {i n : ℕ} (h : i ≤ n) :
    (runTakes P t n).tokens ≤ P.cap + credit P t n - credit P t i - (n - i + 1) := by
  have hle := level_le_window (r := fun i => refill P (mark P t i) (t (i + 1))) (le_refl P.cap) h
  rw [← tokens_runTakes, ← credit_eq_credited, ← credit_eq_credited] at hle
  omega

/-- **No request finds the bucket empty** exactly when every window of requests is
covered by the capacity and the credit given inside it. -/
theorem runTakes_nonneg_iff (n : ℕ) :
    (∀ j ≤ n, 0 ≤ (runTakes P t j).tokens) ↔
      ∀ i j, i ≤ j → j ≤ n → (j : ℤ) - i + 1 ≤ P.cap + credit P t j - credit P t i := by
  constructor
  · intro h i j hij hjn
    have h1 := h j hjn
    have h2 := tokens_runTakes_le (P := P) (t := t) hij
    omega
  · intro h j hjn
    have hpos := (level_pos_iff (r := fun i => refill P (mark P t i) (t (i + 1))) (le_refl P.cap) j).2
    rw [← tokens_runTakes, ← credit_eq_credited] at hpos
    refine Int.lt_add_one_iff.1 (hpos ⟨?_, ?_⟩)
    · have := h 0 j (Nat.zero_le j) hjn
      simp only [credit, Nat.cast_zero] at this
      omega
    · intro i hi
      have := h i j hi hjn
      rw [← credit_eq_credited]
      omega

end FluxGuard.Bucket
