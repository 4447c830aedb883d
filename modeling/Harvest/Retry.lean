/-! Trying again after a failure that may pass, with growing pauses. -/

namespace Harvest

structure RetryPolicy where
  /-- How often to try, the first time included. Zero counts as one. -/
  maxAttempts : Nat := 3
  /-- Milliseconds before the first retry. -/
  baseDelay : Nat := 500
  /-- Most milliseconds before a retry. -/
  maxDelay : Nat := 10000
  /-- By how much each pause is longer than the one before; below one it counts as one. -/
  multiplier : Float := 2.0

structure Attempted (ε α : Type) where
  result : Except ε α
  retries : Nat
  pauses : List Nat

namespace RetryPolicy

def noRetry : RetryPolicy := { maxAttempts := 1 }

/-- A power by repeated squaring: `done * base ^ exponent`. -/
def power (done base : Float) (exponent : Nat) : Float :=
  let done := if exponent % 2 = 1 then done * base else done
  if exponent / 2 = 0 then done else power done (base * base) (exponent / 2)
termination_by exponent
decreasing_by omega

def ofMillis (n : Nat) : Float := (UInt64.ofNat n).toFloat

/-- Milliseconds before the retry of this number, which counts from one. From the thirty-first
retry on the pause grows no more. -/
def delayFor (p : RetryPolicy) (retry : Nat) : Nat :=
  let factor := if p.multiplier > 1 then p.multiplier else 1
  let pause := ofMillis p.baseDelay * power 1 factor (min (retry - 1) 30)
  let most := ofMillis p.maxDelay
  (if pause ≤ most then pause else most).toUInt64.toNat

def next? (p : RetryPolicy) (retries : Nat) (transient : Bool) : Option Nat :=
  if transient ∧ retries + 1 < max 1 p.maxAttempts then some (retries + 1) else none

theorem lt_maxAttempts_of_next? {p : RetryPolicy} {retries n : Nat} {transient : Bool}
    (h : p.next? retries transient = some n) : n = retries + 1 ∧ n < max 1 p.maxAttempts := by
  simp only [next?] at h
  split at h
  · simp only [Option.some.injEq] at h; omega
  · simp at h

/-- From this number of retries on. -/
def runFrom (p : RetryPolicy) (transient : ε → Bool) (attempt : Nat → Except ε α) (retries : Nat) :
    Attempted ε α :=
  match attempt retries with
  | .ok a => { result := .ok a, retries, pauses := [] }
  | .error e =>
    match _h : p.next? retries (transient e) with
    | none => { result := .error e, retries, pauses := [] }
    | some n =>
      let rest := runFrom p transient attempt n
      { rest with pauses := p.delayFor n :: rest.pauses }
termination_by p.maxAttempts + 1 - retries
decreasing_by
  have := lt_maxAttempts_of_next? _h
  omega

/-- Tries until an attempt succeeds, fails for good, or is the last one. Each attempt is given the
number of retries so far. -/
def run (p : RetryPolicy) (transient : ε → Bool) (attempt : Nat → Except ε α) : Attempted ε α :=
  p.runFrom transient attempt 0

def runWithFrom (p : RetryPolicy) (transient : ε → Bool) (attempt : σ → Nat → σ × Except ε α)
    (s : σ) (retries : Nat) : σ × Attempted ε α :=
  match attempt s retries with
  | (s, .ok a) => (s, { result := .ok a, retries, pauses := [] })
  | (s, .error e) =>
    match _h : p.next? retries (transient e) with
    | none => (s, { result := .error e, retries, pauses := [] })
    | some n =>
      let (s, rest) := runWithFrom p transient attempt s n
      (s, { rest with pauses := p.delayFor n :: rest.pauses })
termination_by p.maxAttempts + 1 - retries
decreasing_by
  have := lt_maxAttempts_of_next? _h
  omega

/-- As `run`, but each attempt is also given the state that the one before has left. -/
def runWith (p : RetryPolicy) (transient : ε → Bool) (attempt : σ → Nat → σ × Except ε α)
    (s : σ) : σ × Attempted ε α :=
  p.runWithFrom transient attempt s 0

end RetryPolicy

namespace Attempted

/-- The instants at which the attempts were made, in milliseconds after the first one. -/
def instants (a : Attempted ε α) : List Nat :=
  let step : List Nat × Nat → Nat → List Nat × Nat :=
    fun (done, now) pause => ((now + pause) :: done, now + pause)
  (a.pauses.foldl step ([0], 0)).1.reverse

def elapsed (a : Attempted ε α) : Nat := a.pauses.foldl (· + ·) 0

end Attempted

end Harvest
