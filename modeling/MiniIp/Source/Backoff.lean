import MiniIp.Source.Stack

/-!
# Retransmission timeouts

Source: backoff.h:11-23, backoff.c:8-41. `Time` is the 32-bit unsigned type of
the clock, so the jitter is an unsigned remainder.
-/

set_option autoImplicit false

namespace MiniIp.Source

def backoffReset (backoff : Backoff) : Backoff :=
  { backoff with count := 0, timeout := backoff.startTimeout }

def backoffInit (backoff : Backoff) (startTimeout maxTimeout : Time) (jitterFraction : UInt32) :
    Backoff :=
  backoffReset { backoff with
    maxTimeout := maxTimeout, startTimeout := startTimeout, jitterFraction := jitterFraction }

def backoffTimeout (backoff : Backoff) (now : Time) : Bool :=
  backoff.count = 0 ∨ getElapsed backoff.time now > backoff.timeoutWithJitter

/-- `next_backoff`, with the value that `random()` returns where it is called. -/
def nextBackoff (backoff : Backoff) (now : Time) (random : UInt32) : Backoff :=
  let backoff := { backoff with time := now, count := backoff.count + 1 }
  if backoff.count ≠ 0 then
    let timeout :=
      if backoff.timeout * 2 < backoff.maxTimeout then backoff.timeout * 2 else backoff.maxTimeout
    { backoff with
      timeout := timeout
      timeoutWithJitter := timeout + random % (timeout / backoff.jitterFraction) }
  else
    backoff

end MiniIp.Source
