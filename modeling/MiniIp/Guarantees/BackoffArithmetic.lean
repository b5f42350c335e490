import MiniIp.Invariant.BackoffBounds
import MiniIp.Source.Dhcp
import MiniIp.Source.Tftp

/-!
# The arithmetic of the backoff

Whatever the random numbers and the times, and however often the timeouts are started again, the timeout stays between
its bounds, grows between two resets, and is jittered by less than its `jitter_fraction`-th part. No 32-bit operation
wraps.
-/

set_option autoImplicit false

namespace MiniIp.Guarantees.BackoffArithmetic

open MiniIp.Source MiniIp.Invariant

inductive Call where
  | next (now : Time) (random : UInt32)
  | reset

def Call.exec (b : Backoff) : Call → Backoff
  | next now random => nextBackoff b now random
  | reset => backoffReset b

def Call.isNext : Call → Bool
  | next _ _ => true
  | reset => false

/-- The backoff after the calls. -/
def after (b : Backoff) (calls : List Call) : Backoff := calls.foldl Call.exec b

/-- What `next_backoff` has made of the backoff. -/
structure Stepped (b b' : Backoff) : Prop where
  grown : b.timeout.toNat ≤ b'.timeout.toNat
  modulus : 0 < b'.timeout.toNat / b'.jitterFraction.toNat
  lower : b'.timeout.toNat - b'.timeout.toNat / b'.jitterFraction.toNat ≤ b'.timeoutWithJitter.toNat
  upper : b'.timeoutWithJitter.toNat ≤ b'.timeout.toNat + b'.timeout.toNat / b'.jitterFraction.toNat
  noWrap : b'.timeout.toNat + b'.timeout.toNat / b'.jitterFraction.toNat < 2 ^ 32

/-- What holds between two calls. -/
structure Safe (startTimeout maxTimeout jitterFraction : UInt32) (b : Backoff) : Prop where
  lower : startTimeout.toNat ≤ b.timeout.toNat
  upper : b.timeout.toNat ≤ maxTimeout.toNat
  double : (b.timeout * 2).toNat = 2 * b.timeout.toNat
  modulus : 0 < b.timeout.toNat / jitterFraction.toNat
  count : b.count < 2 ^ 31
  next : ∀ now random, Stepped b (nextBackoff b now random)
  grows : ∀ later : List Call, (∀ call ∈ later, call.isNext = true) → b.timeout.toNat ≤ (after b later).timeout.toNat

variable {b : Backoff} {calls : List Call} {call : Call} {startTimeout maxTimeout jitterFraction : UInt32}

theorem exec_withinBounds (h : WithinBounds b) (call : Call) : WithinBounds (call.exec b) := by
  cases call with
  | next now random => exact h.next now random
  | reset => exact h.configured.reset

theorem exec_settings (b : Backoff) (call : Call) : SameSettings b (call.exec b) := by
  cases call with
  | next now random => exact nextBackoff_settings b now random
  | reset => exact backoffReset_settings b

theorem after_withinBounds (h : WithinBounds b) (calls : List Call) : WithinBounds (after b calls) := by
  induction calls generalizing b with
  | nil => exact h
  | cons call rest ih => exact ih (exec_withinBounds h call)

theorem after_settings (b : Backoff) (calls : List Call) : SameSettings b (after b calls) := by
  induction calls generalizing b with
  | nil => exact ⟨rfl, rfl, rfl⟩
  | cons call rest ih => exact (exec_settings b call).trans (ih (call.exec b))

/-- The counter does not overflow. -/
theorem after_count (b : Backoff) (calls : List Call) : (after b calls).count ≤ b.count + calls.countP Call.isNext := by
  induction calls generalizing b with
  | nil => exact le_refl _
  | cons call rest ih =>
    have hrest := ih (call.exec b)
    cases call with
    | next now random =>
      have hcount := nextBackoff_count b now random
      rw [List.countP_cons_of_pos rfl]
      show (after (nextBackoff b now random) rest).count ≤ _
      rw [Call.exec, hcount] at hrest
      omega
    | reset =>
      rw [List.countP_cons_of_neg (by simp [Call.isNext])]
      have hzero : (Call.exec b .reset).count = 0 := rfl
      rw [hzero] at hrest
      exact hrest.trans (by omega)

theorem WithinBounds.stepped (h : WithinBounds b) (now : Time) (random : UInt32) : Stepped b (nextBackoff b now random) := by
  have hnext := h.next now random
  have hjitter := h.jitter_next now random
  have htimeout := h.timeout_next now random
  have hmodulus := hnext.modulus_pos
  have hupper := h.upper
  have hless := Nat.mod_lt random.toNat hmodulus
  have hpart := Nat.div_le_self (nextBackoff b now random).timeout.toNat (nextBackoff b now random).jitterFraction.toNat
  have hsmall := hnext.configured.small
  have hlimit := hnext.upper
  rw [← (nextBackoff_settings b now random).fraction] at hjitter
  constructor
  · omega
  · exact hmodulus
  · omega
  · omega
  · omega

/-- Between two resets. -/
theorem WithinBounds.grows (h : WithinBounds b) {later : List Call} (hnext : ∀ call ∈ later, call.isNext = true) :
    b.timeout.toNat ≤ (after b later).timeout.toNat := by
  induction later generalizing b with
  | nil => exact le_refl _
  | cons call rest ih =>
    have hrest := ih (exec_withinBounds h call) fun c hc => hnext c (List.mem_cons_of_mem call hc)
    cases call with
    | next now random => exact (WithinBounds.stepped h now random).grown.trans hrest
    | reset => exact absurd (hnext .reset List.mem_cons_self) (by decide)

/-- After `backoff_init` and any calls, fewer than `2^31` of them of `next_backoff`. -/
theorem backoff_safe (old : Backoff) (hconfigured : Configured (backoffInit old startTimeout maxTimeout jitterFraction))
    (hfew : calls.countP Call.isNext < 2 ^ 31) :
    Safe startTimeout maxTimeout jitterFraction (after (backoffInit old startTimeout maxTimeout jitterFraction) calls) := by
  have hstarted : WithinBounds (backoffInit old startTimeout maxTimeout jitterFraction) := hconfigured.reset
  have hbounds := after_withinBounds hstarted calls
  have hsettings := after_settings (backoffInit old startTimeout maxTimeout jitterFraction) calls
  have hcount := after_count (backoffInit old startTimeout maxTimeout jitterFraction) calls
  have hzero : (backoffInit old startTimeout maxTimeout jitterFraction).count = 0 := rfl
  constructor
  · have hlower := hbounds.lower
    rwa [hsettings.start] at hlower
  · have hupper := hbounds.upper
    rwa [hsettings.maximum] at hupper
  · exact hbounds.double
  · have hmodulus := hbounds.modulus_pos
    rwa [hsettings.fraction] at hmodulus
  · omega
  · intro now random
    exact WithinBounds.stepped hbounds now random
  · intro later hnext
    exact WithinBounds.grows hbounds hnext

/-- The settings of the TFTP client, through two timeouts and a reset. -/
theorem backoff_safe_tftp :
    Safe tftpBackoffStartTimeout tftpBackoffMaxTimeout tftpBackoffJitterFraction
      (after (backoffInit ⟨0, 0, 0, 0, 0, 0, 0⟩ tftpBackoffStartTimeout tftpBackoffMaxTimeout tftpBackoffJitterFraction)
        [.next 0 7, .next 1200 4000000000, .reset, .next 5000 1]) :=
  backoff_safe ⟨0, 0, 0, 0, 0, 0, 0⟩ ⟨by decide, by decide, by decide, by decide⟩ (by decide)

/-- The settings of the DHCP client are such a configuration too. -/
example : Configured (backoffInit ⟨0, 0, 0, 0, 0, 0, 0⟩ dhcpStartTimeout dhcpMaxTimeout dhcpJitterFraction) :=
  ⟨by decide, by decide, by decide, by decide⟩

end MiniIp.Guarantees.BackoffArithmetic
