import FluxGuard.Model.Filter

/-!
# The test suite's bucket

`tests/test_fluxguard.py` checks the refill arithmetic on a copy of `token_bucket_check` in
Python, whose integers have no width and no wrap.
-/

namespace FluxGuard

/-- The test suite's `{'last_time', 'tokens'}`. -/
structure PyBucket where
  lastTime : ℤ
  tokens : ℤ
deriving DecidableEq, Repr

namespace PyBucket

/-- `KERN_PPS_LIMIT` of the test. -/
def KERN_PPS_LIMIT : ℤ := 1000

/-- `NS_PER_SEC` of the test. -/
def NS_PER_SEC : ℤ := 1000000000

/-- The mirror of `token_bucket_check`; `true` is DROP. The divisor is positive, so `//` is `/`. -/
def tokenBucketCheck (tb : PyBucket) (now : ℤ) : PyBucket × Bool :=
  let elapsedNs := now - tb.lastTime
  let tb :=
    if elapsedNs > 0 then
      let refill := elapsedNs * KERN_PPS_LIMIT / NS_PER_SEC
      if refill > 0 then
        let tokens := tb.tokens + refill
        { lastTime := now, tokens := if tokens > KERN_PPS_LIMIT then KERN_PPS_LIMIT else tokens }
      else tb
    else tb
  let tokens := tb.tokens - 1
  ({ tb with tokens := tokens }, decide (tokens < 0))

end PyBucket

/-- A kernel bucket as the test suite would write it. -/
def TokenBucket.toPy (tb : TokenBucket) : PyBucket := ⟨tb.lastTime.toNat, tb.tokens.toInt⟩

/-- Call a bucket check at each time in turn; the bucket at the end and the results. -/
def replay {σ τ : Type} (check : σ → τ → σ × Bool) (s : σ) (nows : List τ) : σ × List Bool :=
  nows.foldl (fun r now => ((check r.1 now).1, r.2 ++ [(check r.1 now).2])) (s, [])

@[simp] theorem replay_nil {σ τ : Type} (check : σ → τ → σ × Bool) (s : σ) : replay check s [] = (s, []) := rfl

/-- A sequence and one check more. -/
theorem replay_concat {σ τ : Type} (check : σ → τ → σ × Bool) (s : σ) (nows : List τ) (now : τ) :
    replay check s (nows ++ [now]) =
      ((check (replay check s nows).1 now).1, (replay check s nows).2 ++ [(check (replay check s nows).1 now).2]) := by
  unfold replay
  rw [List.foldl_append]
  rfl

end FluxGuard
