import MiniIp.Invariant.SoundRun

/-!
# Header windows

Wherever a handler or a sender places a header on a buffer, and wherever a
packet is handed to the driver or to a queue, the packet and the header lie in
`data[0..1024)`, in every run that meets `LeavesRoom`.

`verify_ip_header` (ip.c:145-166) does not refuse a header-length nibble below
five. The answer to a ping with such a header is built in place and starts in
front of the buffer.
-/

set_option autoImplicit false

namespace MiniIp.Guarantees.HeaderWindow

open MiniIp.Source MiniIp.Invariant MiniIp.Library.Runs MiniIp.Library.Wp

/-- The stack builds its own packets from data that may be of any non-negative size. -/
def OrdinaryUse (_ : Stack) : Op → Prop
  | .udpSend _ size _ _ _ => 0 ≤ size
  | .abortDownload _ => False
  | _ => True

variable {application : Application} {time : Time} {entropy : Nat → UInt32} {s : Stack}

/-- In every run with room for the headers, every window placed so far lies in its buffer, also
when the next call never returns. -/
theorem windows_in_buffer
    (h : Reaches Op.exec LeavesRoom (booted application time entropy) s) :
    (∀ event ∈ s.trace, InBuffer event) ∧
      ∀ op halt t, LeavesRoom s op → op.exec s = .error halt t →
        ∀ event ∈ t.trace, InBuffer event := by
  have hintact := reaches_intact True h fun _ _ _ hroom => hroom
  constructor
  · obtain ⟨_, _, hs⟩ := hintact
    exact hs.windows trivial
  · intro op halt t hroom hstopped
    have htrace := wp_error (exec_intact hintact (fun _ => hroom) (fun _ => brings_any _)) hstopped
    exact htrace.1 trivial

theorem windows_in_buffer_sending :
    ∃ s, Reaches Op.exec LeavesRoom (booted zeroApplication 0 fun _ => 0) s ∧
      s.trace.length = 8 ∧ ∀ event ∈ s.trace, InBuffer event := by
  have hrun : runs Op.exec (fun _ _ => true) (fun s => s.trace.length = 8)
      [.sendToIp [1, 2, 3] 0x0A000002, .udpListen 7 1] (booted zeroApplication 0 fun _ => 0) = true := by
    decide +kernel
  obtain ⟨s, hreach, hlength⟩ := reaches_of_runs LeavesRoom .start (by simp [LeavesRoom]) hrun
  exact ⟨s, hreach, by simpa using hlength, (windows_in_buffer hreach).1⟩

/-- A ping whose header claims four bytes, with the ICMP header behind them. -/
def shortHeaderPing : List UInt8 :=
  [0xFF, 0xFF, 0xFF, 0xFF, 0xFF, 0xFF, 2, 0, 0, 0, 0, 1, 0x08, 0x00,
    0x41, 0, 0, 46, 8, 0, 0, 0, 64, 1, 0, 0, 10, 0, 0, 2, 10, 0, 0, 1]

instance : DecidablePred InBuffer := fun event => by
  unfold InBuffer
  split <;> infer_instance

/-- The answer to a short ping places its IP header two bytes in front of the buffer. -/
theorem windows_broken :
    ∃ s, Reaches Op.exec OrdinaryUse (booted zeroApplication 0 fun _ => 0) s ∧
      ∃ event ∈ s.trace, ¬ InBuffer event := by
  have hrun : runs Op.exec (fun _ _ => true) (fun s => s.trace.any fun event => ¬ InBuffer event)
      [.deliver 0 60 shortHeaderPing, .receive] (booted zeroApplication 0 fun _ => 0) = true := by
    decide +kernel
  obtain ⟨s, hreach, hbroken⟩ := reaches_of_runs OrdinaryUse .start
    (by simp [Op.deliver, OrdinaryUse]) hrun
  refine ⟨s, hreach, ?_⟩
  simpa using hbroken

end MiniIp.Guarantees.HeaderWindow
