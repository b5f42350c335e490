import Mathlib.Order.Lattice
import Mathlib.Tactic.Common
import MiniIp.Source.Backoff

/-!
# The bounds of a backoff

`next_backoff` (backoff.c:22-34) in natural numbers: as long as the configuration is one that the module is meant for,
no 32-bit operation wraps, and the timeout is the start timeout doubled once for each call, up to the maximum.
-/

set_option autoImplicit false

namespace MiniIp.Invariant

open MiniIp.Source

/-- A configuration with `1 ≤ jitter_fraction ≤ start_timeout ≤ max_timeout < 2^30`. -/
structure Configured (b : Backoff) : Prop where
  fraction : 1 ≤ b.jitterFraction.toNat
  start : b.jitterFraction.toNat ≤ b.startTimeout.toNat
  maximum : b.startTimeout.toNat ≤ b.maxTimeout.toNat
  small : b.maxTimeout.toNat < 2 ^ 30

/-- The part of a backoff that no call but `backoff_init` assigns. -/
structure SameSettings (b b' : Backoff) : Prop where
  start : b'.startTimeout = b.startTimeout
  maximum : b'.maxTimeout = b.maxTimeout
  fraction : b'.jitterFraction = b.jitterFraction

/-- The timeout is within its bounds. -/
structure WithinBounds (b : Backoff) : Prop where
  configured : Configured b
  lower : b.startTimeout.toNat ≤ b.timeout.toNat
  upper : b.timeout.toNat ≤ b.maxTimeout.toNat

variable {b b' : Backoff} {now : Time} {random : UInt32}

theorem SameSettings.configured (h : SameSettings b b') (hb : Configured b) : Configured b' := by
  constructor
  · rw [h.fraction]
    exact hb.fraction
  · rw [h.fraction, h.start]
    exact hb.start
  · rw [h.start, h.maximum]
    exact hb.maximum
  · rw [h.maximum]
    exact hb.small

theorem SameSettings.trans {b'' : Backoff} (h : SameSettings b b') (h' : SameSettings b' b'') : SameSettings b b'' :=
  ⟨h'.start.trans h.start, h'.maximum.trans h.maximum, h'.fraction.trans h.fraction⟩

/-- The counter has just been incremented, so its test (backoff.c:30) always holds. -/
theorem nextBackoff_eq (b : Backoff) (now : Time) (random : UInt32) :
    nextBackoff b now random =
      { b with
        time := now
        count := b.count + 1
        timeout := if b.timeout * 2 < b.maxTimeout then b.timeout * 2 else b.maxTimeout
        timeoutWithJitter := (if b.timeout * 2 < b.maxTimeout then b.timeout * 2 else b.maxTimeout) +
          random % ((if b.timeout * 2 < b.maxTimeout then b.timeout * 2 else b.maxTimeout) / b.jitterFraction) } := by
  rw [nextBackoff, if_pos (Nat.succ_ne_zero b.count)]

theorem nextBackoff_settings (b : Backoff) (now : Time) (random : UInt32) : SameSettings b (nextBackoff b now random) := by
  rw [nextBackoff_eq]
  exact ⟨rfl, rfl, rfl⟩

theorem nextBackoff_count (b : Backoff) (now : Time) (random : UInt32) : (nextBackoff b now random).count = b.count + 1 := by
  rw [nextBackoff_eq]

theorem nextBackoff_time (b : Backoff) (now : Time) (random : UInt32) : (nextBackoff b now random).time = now := by
  rw [nextBackoff_eq]

/-- The product does not wrap. -/
theorem WithinBounds.double (h : WithinBounds b) : (b.timeout * 2).toNat = 2 * b.timeout.toNat := by
  have hsmall := h.configured.small
  have hupper := h.upper
  have htwo : (2 : UInt32).toNat = 2 := rfl
  rw [UInt32.toNat_mul, htwo]
  omega

/-- The jitter modulus is never 0. -/
theorem WithinBounds.modulus_pos (h : WithinBounds b) : 0 < b.timeout.toNat / b.jitterFraction.toNat := by
  have hstart := h.configured.start
  have hlower := h.lower
  exact Nat.div_pos (by omega) h.configured.fraction

theorem WithinBounds.timeout_next (h : WithinBounds b) (now : Time) (random : UInt32) :
    (nextBackoff b now random).timeout.toNat = min (2 * b.timeout.toNat) b.maxTimeout.toNat := by
  have hdouble := h.double
  rw [nextBackoff_eq]
  dsimp only
  split
  · next hless =>
    rw [UInt32.lt_iff_toNat_lt] at hless
    omega
  · next hmore =>
    rw [UInt32.lt_iff_toNat_lt] at hmore
    omega

theorem WithinBounds.next (h : WithinBounds b) (now : Time) (random : UInt32) : WithinBounds (nextBackoff b now random) := by
  have hsettings := nextBackoff_settings b now random
  have htimeout := h.timeout_next now random
  have hmaximum := h.configured.maximum
  have hlower := h.lower
  refine ⟨hsettings.configured h.configured, ?_, ?_⟩
  · rw [hsettings.start]
    omega
  · rw [hsettings.maximum]
    omega

/-- The jitter is an unsigned remainder, so it is added only. -/
theorem WithinBounds.jitter_next (h : WithinBounds b) (now : Time) (random : UInt32) :
    (nextBackoff b now random).timeoutWithJitter.toNat = (nextBackoff b now random).timeout.toNat +
      random.toNat % ((nextBackoff b now random).timeout.toNat / b.jitterFraction.toNat) := by
  have hnext := h.next now random
  have hsmall := hnext.configured.small
  have hupper := hnext.upper
  have hmodulus := hnext.modulus_pos
  have hjitter := Nat.mod_lt random.toNat hmodulus
  have hpart := Nat.div_le_self (nextBackoff b now random).timeout.toNat (nextBackoff b now random).jitterFraction.toNat
  rw [(nextBackoff_settings b now random).fraction] at hjitter hpart
  have hsum : (nextBackoff b now random).timeoutWithJitter =
      (nextBackoff b now random).timeout + random % ((nextBackoff b now random).timeout / b.jitterFraction) := by
    rw [nextBackoff_eq]
  rw [hsum, UInt32.toNat_add, UInt32.toNat_mod, UInt32.toNat_div]
  omega

theorem backoffReset_settings (b : Backoff) : SameSettings b (backoffReset b) := ⟨rfl, rfl, rfl⟩

theorem Configured.reset (h : Configured b) : WithinBounds (backoffReset b) :=
  ⟨(backoffReset_settings b).configured h, le_refl _, h.maximum⟩

end MiniIp.Invariant
