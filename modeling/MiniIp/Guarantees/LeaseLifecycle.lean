import MiniIp.Invariant.DhcpServer
import MiniIp.Invariant.Lifecycle

/-!
# A lease goes through its life in order

Whatever arrives and whenever `dhcp_task` is called (dhcp.c:364-440), what the client does is a word
that the automaton of `Phase.next` accepts. A reply is accepted only where one is expected and
leads at once to the next state, each state sends its own packet and no other, and `DHCP_REBINDING` is
entered from `DHCP_RENEWING` only. The README lists rebinding among what the client supports. The packet
of that kind is never sent.
-/

set_option autoImplicit false

namespace MiniIp.Guarantees.LeaseLifecycle

open MiniIp.Source MiniIp.Invariant MiniIp.Library.Runs

variable {application : Application} {time : Time} {entropy : Nat → UInt32} {s : Stack}

theorem reaches_staged (h : Reaches Op.exec StartsOnce (booted application time entropy) s) : Staged s := by
  apply h.invariant
  · refine ⟨.idle .disabled, ?_, ?_⟩
    · unfold InPhase
      rw [booted_fresh.trace]
      rfl
    · rw [booted_fresh.dhcp]
      rfl
  · intro s op _ hs met
    exact exec_staged hs met

/-- What holds of the phases along an accepted word. -/
theorem foldrM_phases (P : Phase → Prop) {steps : List DhcpStep} {first last : Phase} (hfirst : P first)
    (hnext : ∀ phase step phase', P phase → phase.next step = some phase' → P phase')
    (h : steps.foldrM (fun step phase => phase.next step) first = some last) : P last := by
  induction steps generalizing last with
  | nil =>
    cases h
    exact hfirst
  | cons step past ih =>
    rw [List.foldrM_cons, Option.bind_eq_bind, Option.bind_eq_some_iff] at h
    obtain ⟨phase, hpast, hlast⟩ := h
    exact hnext phase step last (ih hpast) hlast

/-- A step of an accepted word is possible somewhere. -/
theorem foldrM_possible {steps : List DhcpStep} {first last : Phase} {step : DhcpStep} (hmem : step ∈ steps)
    (h : steps.foldrM (fun step phase => phase.next step) first = some last) :
    ∃ phase phase', Phase.next phase step = some phase' := by
  induction steps generalizing last with
  | nil => cases hmem
  | cons newest past ih =>
    rw [List.foldrM_cons, Option.bind_eq_bind, Option.bind_eq_some_iff] at h
    obtain ⟨phase, hpast, hlast⟩ := h
    rcases List.mem_cons.mp hmem with rfl | hold
    · exact ⟨phase, last, hlast⟩
    · exact ih hold hpast

theorem not_rebind (phase phase' : Phase) : phase.next (.sent .rebind) ≠ some phase' := by
  cases phase with
  | idle state => cases state <;> simp [Phase.next]
  | late renewed => cases renewed <;> simp [Phase.next]
  | selecting => simp [Phase.next]
  | binding => simp [Phase.next]

theorem next_not_error (phase : Phase) (step : DhcpStep) (phase' : Phase) (h : phase ≠ .idle .error)
    (hnext : phase.next step = some phase') : phase' ≠ .idle .error := by
  rintro rfl
  unfold Phase.next at hnext
  split at hnext <;> simp_all

/-- The automaton accepts what the client has done, and stands in a phase of its state. No packet of kind REBIND
is among it, and the error state has not been entered. -/
theorem lifecycle_followed (h : Reaches Op.exec StartsOnce (booted application time entropy) s) :
    (phaseAfter s.trace).bind Phase.state = some s.dhcp.state ∧ .dhcpSent .rebind ∉ s.trace ∧
      s.dhcp.state ≠ .error := by
  obtain ⟨phase, hphase, hstate⟩ := reaches_staged h
  refine ⟨?_, ?_, ?_⟩
  · rw [hphase]
    exact hstate
  · intro hsent
    have hmem : DhcpStep.sent .rebind ∈ s.trace.filterMap Event.dhcpStep := List.mem_filterMap.mpr ⟨_, hsent, rfl⟩
    obtain ⟨before, after, hnext⟩ := foldrM_possible hmem hphase
    exact not_rebind before after hnext
  · intro herror
    rw [herror] at hstate
    have hreal : phase ≠ .idle .error := foldrM_phases (fun phase => phase ≠ .idle .error) (by decide) next_not_error hphase
    exact hreal (Phase.idle_of_state hstate (by decide))

def startsGuard (s : Stack) : Op → Bool
  | .dhcpStart => s.dhcp.state = .disabled
  | _ => true

theorem startsOnce_of_guard {op : Op} (h : startsGuard s op = true) : StartsOnce s op := by
  cases op with
  | dhcpStart =>
    have hstate : s.dhcp.state = .disabled := of_decide_eq_true h
    exact hstate
  | _ => trivial

/-- The client gets a lease, and renews it after half of its time. -/
theorem lifecycle_followed_renewing :
    ∃ s, Reaches Op.exec StartsOnce (booted zeroApplication 0 fun _ => 0) s ∧ s.dhcp.state = .renewing ∧
      (phaseAfter s.trace).bind Phase.state = some .renewing := by
  have hrun : runs Op.exec startsGuard (fun s => s.dhcp.state = .renewing)
      (getsLease ++ [.tick 60000, .dhcpTask, .dhcpTask]) (booted zeroApplication 0 fun _ => 0) = true := by
    decide +kernel
  obtain ⟨s, hreach, hcheck⟩ := reaches_of_runs StartsOnce .start
    (fun _ _ _ hguard => startsOnce_of_guard hguard) hrun
  have hstate : s.dhcp.state = .renewing := of_decide_eq_true hcheck
  obtain ⟨hfollowed, _⟩ := lifecycle_followed hreach
  rw [hstate] at hfollowed
  exact ⟨s, hreach, hstate, hfollowed⟩

end MiniIp.Guarantees.LeaseLifecycle
