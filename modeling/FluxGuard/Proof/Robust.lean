import FluxGuard.Proof.Ringbuf

/-!
# Draining arbitrary memory

The reader trusts the length in a header: it moves on by it without a look at the producer position.

* `drainsSafely_iff`: **a call neither raises nor leaves the consumer position outside the ring's
  bounds exactly when no header that it reads is longer than what is left**.
* `overlong_header`: one such header, past the producer and past 64 bits.
-/

namespace FluxGuard

/-- The loop comes from `cons` to the position `p`, and reads the header there. -/
inductive Visits (buf : Mmap) (dataOffset rbSize prod : ℕ) : ℕ → ℕ → Prop
  | here {cons : ℕ} : cons < prod → Visits buf dataOffset rbSize prod cons cons
  | on {cons size : ℕ} {event : Option RbEvent} {p : ℕ} : cons < prod →
      readRecord buf dataOffset rbSize cons = .advance size event →
      Visits buf dataOffset rbSize prod (cons + size) p → Visits buf dataOffset rbSize prod cons p

/-- No header on the way is longer than what is left. -/
def InBounds (buf : Mmap) (dataOffset rbSize prod cons : ℕ) : Prop :=
  ∀ p, Visits buf dataOffset rbSize prod cons p →
    ∀ size event, readRecord buf dataOffset rbSize p = .advance size event → p + size ≤ prod

/-- The loop ends without an exception, and not past the producer position. -/
def EndsInBounds (buf : Mmap) (dataOffset rbSize prod cons : ℕ) (events : List RbEvent) : Prop :=
  ∃ evs, ∃ y ≤ prod, loopAt buf dataOffset rbSize prod cons events = some (evs, buf.setCons y)

theorem Mmap.leNat_setCons (buf : Mmap) {x : ℕ} (hx : x < 2 ^ 64) : leNat ((buf.setCons x).slice 0 8) = x := by
  rw [slice_cons]
  exact leNat_leBytes_of_lt hx

/-- Two positions stored are two memories. -/
theorem Mmap.setCons_inj {buf : Mmap} {x y : ℕ} (hx : x < 2 ^ 64) (hy : y < 2 ^ 64)
    (h : buf.setCons x = buf.setCons y) :
    x = y := by
  have hword := leNat_setCons buf hx
  rw [h, leNat_setCons buf hy] at hword
  exact hword.symm

section Loop

variable {buf : Mmap} {dataOffset rbSize prod : ℕ}

/-- A drain at its end is in bounds. -/
theorem inBounds_of_done {cons : ℕ} (h : prod ≤ cons) : InBounds buf dataOffset rbSize prod cons := by
  intro p hp
  cases hp with
  | here hlt => omega
  | on hlt => omega

/-- So is one that a record stops. -/
theorem inBounds_of_stop {cons : ℕ} (hr : readRecord buf dataOffset rbSize cons = .stop) :
    InBounds buf dataOffset rbSize prod cons := by
  intro p hp size event hsize
  cases hp with
  | here hlt =>
    rw [hr] at hsize
    cases hsize
  | on hlt hr' =>
    rw [hr] at hr'
    cases hr'

/-- After a record it is in bounds when it is so from the next one on. -/
theorem inBounds_advance {cons size : ℕ} {event : Option RbEvent} (hlt : cons < prod)
    (hr : readRecord buf dataOffset rbSize cons = .advance size event) :
    InBounds buf dataOffset rbSize prod cons ↔
      cons + size ≤ prod ∧ InBounds buf dataOffset rbSize prod (cons + size) := by
  constructor
  · intro h
    exact ⟨h cons (.here hlt) size event hr, fun p hp => h p (.on hlt hr hp)⟩
  · rintro ⟨hle, h⟩ p hp size' event' hr'
    cases hp with
    | here =>
      rw [hr] at hr'
      cases hr'
      exact hle
    | on _ hr'' hp =>
      rw [hr] at hr''
      cases hr''
      exact h p hp size' event' hr'

/-- The loop ends in bounds exactly when every pass is in bounds. -/
theorem endsInBounds_iff (hd : 8 ≤ dataOffset) (hs : 8 ≤ buf.size) (hprod : prod < 2 ^ 64) (n : ℕ) :
    ∀ cons events, prod - cons = n → cons ≤ prod →
      (EndsInBounds buf dataOffset rbSize prod cons events ↔ InBounds buf dataOffset rbSize prod cons) := by
  -- by induction on what is left; a pass always moves on
  induction n using Nat.strong_induction_on with
  | _ n ih =>
    intro cons events hn hle
    rcases hle.lt_or_eq with hlt | rfl
    · cases hr : readRecord buf dataOffset rbSize cons with
      | stop =>
        exact iff_of_true ⟨events, cons, hle, loopAt_stop hd hlt hr events⟩ (inBounds_of_stop hr)
      | advance size event =>
        have hpos := (size_of_advance hr).1
        have hloop := loopAt_advance hd hs hlt hr events
        rw [inBounds_advance hlt hr]
        by_cases hover : cons + size ≤ prod
        · rw [if_pos (by omega)] at hloop
          rw [← ih (prod - (cons + size)) (by omega) (cons + size) (events ++ event.toList) rfl hover]
          unfold EndsInBounds
          rw [hloop]
          exact (and_iff_right hover).symm
        · refine iff_of_false ?_ fun h => hover h.1
          rintro ⟨evs, y, hy, hend⟩
          rw [hloop] at hend
          split at hend
          · rename_i h64
            rw [loopAt_done (by omega)] at hend
            have := Mmap.setCons_inj h64 (hy.trans_lt hprod) (congrArg Prod.snd (Option.some.inj hend))
            omega
          · cases hend
    · exact iff_of_true ⟨events, cons, le_rfl, loopAt_done le_rfl events⟩ (inBounds_of_done le_rfl)

end Loop

/-! ## Calls -/

/-- A call raises nothing and leaves a consumer position between the old one and the producer's. -/
def DrainsSafely (pageSize : ℕ) (buf : Mmap) (rbSize : ℕ) : Prop :=
  ∃ events buf', drainRingbuf pageSize buf (2 * pageSize) rbSize = some (events, buf') ∧
    min (leNat (buf.slice 0 8)) (leNat (buf.slice pageSize 8)) ≤ leNat (buf'.slice 0 8) ∧
    leNat (buf'.slice 0 8) ≤ max (leNat (buf.slice 0 8)) (leNat (buf.slice pageSize 8))

theorem unpackFrom_eq {buf : Mmap} {n off : ℕ} (h : off + n ≤ buf.size) :
    buf.unpackFrom n off = some (leNat (buf.slice off n)) :=
  if_pos h

theorem leNat_slice_lt (buf : Mmap) (off : ℕ) : leNat (buf.slice off 8) < 2 ^ 64 := by
  have := leNat_lt (buf.slice off 8)
  rwa [show (buf.slice off 8).length = 8 by simp [Mmap.slice]] at this

/-- A call on any memory that holds the two positions. -/
theorem drainRingbuf_eq {pageSize : ℕ} {buf : Mmap} (hsize : pageSize + 8 ≤ buf.size) (dataOffset rbSize : ℕ) :
    drainRingbuf pageSize buf dataOffset rbSize =
      if leNat (buf.slice pageSize 8) < leNat (buf.slice 0 8) ∨
        leNat (buf.slice pageSize 8) - leNat (buf.slice 0 8) > rbSize
      then some ([], buf)
      else loopAt buf dataOffset rbSize (leNat (buf.slice pageSize 8)) (leNat (buf.slice 0 8)) [] := by
  unfold drainRingbuf loopAt
  rw [unpackFrom_eq (by omega : 0 + 8 ≤ buf.size), unpackFrom_eq hsize, Mmap.setCons_self rfl]

/-- **When draining is robust**: whatever the memory holds, a call raises nothing and leaves a consumer
position between the old one and the producer's exactly when the two are too far apart to be
followed, or no header that the loop reads is longer than what is left. -/
theorem drainsSafely_iff (pageSize k : ℕ) (hpage : 8 ≤ pageSize) (buf : Mmap)
    (hsize : buf.size = 2 * pageSize + 2 ^ k ∨ buf.size = 2 * pageSize + 2 * 2 ^ k) :
    DrainsSafely pageSize buf (2 ^ k) ↔
      2 ^ k < leNat (buf.slice pageSize 8) - leNat (buf.slice 0 8) ∨
        InBounds buf (2 * pageSize) (2 ^ k) (leNat (buf.slice pageSize 8)) (leNat (buf.slice 0 8)) := by
  have hpow := Nat.two_pow_pos k
  have hclt := leNat_slice_lt buf 0
  have hplt := leNat_slice_lt buf pageSize
  have hd : 8 ≤ 2 * pageSize := by omega
  have hs : 8 ≤ buf.size := by omega
  unfold DrainsSafely
  rw [drainRingbuf_eq (by omega)]
  generalize leNat (buf.slice pageSize 8) = p at *
  generalize hc : leNat (buf.slice 0 8) = c at *
  by_cases hsane : p < c ∨ p - c > 2 ^ k
  · rw [if_pos hsane]
    refine iff_of_true ⟨[], buf, rfl, ?_, ?_⟩ ?_
    · rw [hc]
      exact min_le_left c p
    · rw [hc]
      exact le_max_left c p
    · rcases hsane with hlt | hgt
      · exact Or.inr (inBounds_of_done hlt.le)
      · exact Or.inl hgt
  · have hle : c ≤ p := by omega
    have hbounds : EndsInBounds buf (2 * pageSize) (2 ^ k) p c [] ↔ InBounds buf (2 * pageSize) (2 ^ k) p c :=
      endsInBounds_iff hd hs hplt (p - c) c [] rfl hle
    rw [if_neg hsane, or_iff_right (by omega), ← hbounds, min_eq_left hle, max_eq_right hle]
    constructor
    · rintro ⟨events, buf', hend, hlo, hhi⟩
      obtain ⟨y, hy, hfinal, rfl⟩ := final_of_loopAt hd hs _ rfl hclt hend
      rw [Mmap.leNat_setCons buf hy] at hhi
      exact ⟨events, y, hhi, hend⟩
    · rintro ⟨events, y, hy, hend⟩
      obtain ⟨y', hy', hfinal, heq⟩ := final_of_loopAt hd hs _ rfl hclt hend
      have hyy : y = y' := Mmap.setCons_inj (hy.trans_lt hplt) hy' heq
      refine ⟨events, buf.setCons y, hend, ?_, ?_⟩
      · rw [Mmap.leNat_setCons buf (hy.trans_lt hplt), hyy]
        exact hfinal.le
      · rw [Mmap.leNat_setCons buf (hy.trans_lt hplt)]
        exact hy

/-- A mapping of pages of 4096 bytes and a ring as long, one header in it. -/
def oneHeader (cons prod len : ℕ) : Mmap where
  size := 3 * 4096
  byte i :=
    if i < 8 then (leBytes 8 cons).getD i 0
    else if 4096 ≤ i ∧ i < 4104 then (leBytes 8 prod).getD (i - 4096) 0
    else if 8192 ≤ i ∧ i < 8196 then (leBytes 4 len).getD (i - 8192) 0
    else 0

theorem oneHeader_words (cons prod : ℕ) (hc : cons < 2 ^ 64) (hp : prod < 2 ^ 64) (len : ℕ) :
    leNat ((oneHeader cons prod len).slice 0 8) = cons ∧ leNat ((oneHeader cons prod len).slice 4096 8) = prod := by
  constructor
  · have hslice : (oneHeader cons prod len).slice 0 8 = leBytes 8 cons := rfl
    rw [hslice]
    exact leNat_leBytes_of_lt hc
  · have hslice : (oneHeader cons prod len).slice 4096 8 = leBytes 8 prod := rfl
    rw [hslice]
    exact leNat_leBytes_of_lt hp

/-- A header that fits what is left, and one that does not. -/
theorem drainsSafely_iff_oneHeader :
    DrainsSafely 4096 (oneHeader 0 32 32) (2 ^ 12) ∧ ¬ DrainsSafely 4096 (oneHeader 0 32 40) (2 ^ 12) := by
  have hread : ∀ len, len = 32 ∨ len = 40 →
      ∃ event, readRecord (oneHeader 0 32 len) (2 * 4096) (2 ^ 12) 0 = .advance len event := by
    rintro len (rfl | rfl)
    · exact ⟨_, rfl⟩
    · exact ⟨_, rfl⟩
  have hwords := fun len => oneHeader_words 0 32 (by decide) (by decide) len
  constructor
  · obtain ⟨event, hr⟩ := hread 32 (Or.inl rfl)
    refine (drainsSafely_iff 4096 12 (by decide) (oneHeader 0 32 32) (Or.inl rfl)).2 (Or.inr ?_)
    rw [(hwords 32).1, (hwords 32).2, inBounds_advance (by decide) hr]
    exact ⟨le_rfl, inBounds_of_done le_rfl⟩
  · obtain ⟨event, hr⟩ := hread 40 (Or.inr rfl)
    rw [drainsSafely_iff 4096 12 (by decide) (oneHeader 0 32 40) (Or.inl rfl), (hwords 40).1, (hwords 40).2,
      inBounds_advance (by decide) hr]
    omega

/-- **An overlong header**: of 48 bytes where 40 are left, the consumer position goes past the producer's; where
the sum needs more than 64 bits, the call raises. -/
theorem overlong_header :
    (∃ events buf', drainRingbuf 4096 (oneHeader 0 40 48) (2 * 4096) (2 ^ 12) = some (events, buf') ∧
      leNat (buf'.slice 0 8) = 48) ∧
    drainRingbuf 4096 (oneHeader (2 ^ 64 - 4096) (2 ^ 64 - 1) (2 ^ 28 - 1)) (2 * 4096) (2 ^ 12) = none := by
  constructor
  · obtain ⟨event, hr⟩ : ∃ event, readRecord (oneHeader 0 40 48) (2 * 4096) (2 ^ 12) 0 = .advance 48 event := ⟨_, rfl⟩
    obtain ⟨hc, hp⟩ := oneHeader_words 0 40 (by decide) (by decide) 48
    refine ⟨[] ++ event.toList, (oneHeader 0 40 48).setCons 48, ?_, Mmap.leNat_setCons _ (by decide)⟩
    rw [drainRingbuf_eq (by decide), hc, hp, if_neg (by decide), loopAt_advance (by decide) (by decide) (by decide) hr,
      if_pos (by decide), loopAt_done (by decide)]
  · obtain ⟨event, hr⟩ : ∃ event,
      readRecord (oneHeader (2 ^ 64 - 4096) (2 ^ 64 - 1) (2 ^ 28 - 1)) (2 * 4096) (2 ^ 12) (2 ^ 64 - 4096) =
        .advance (2 ^ 28) event := ⟨_, rfl⟩
    obtain ⟨hc, hp⟩ := oneHeader_words (2 ^ 64 - 4096) (2 ^ 64 - 1) (by decide) (by decide) (2 ^ 28 - 1)
    rw [drainRingbuf_eq (by decide), hc, hp, if_neg (by decide), loopAt_advance (by decide) (by decide) (by decide) hr,
      if_neg (by decide)]

end FluxGuard
