import MiniIp.Invariant.Buffer
import MiniIp.Invariant.Frame

/-!
# The datagrams that are sent

`sentDatagrams` reads off a trace what was passed to `udp_send_zero_copy`, newest
first. `ip_send` and what is below it add nothing to it, and the three TFTP
senders add the one datagram they build.
-/

set_option autoImplicit false

namespace MiniIp.Invariant

open MiniIp.Source MiniIp.Library.Wp

structure Datagram where
  sourcePort : Port
  destPort : Port
  ip : Ip
  payload : List UInt8
  deriving DecidableEq, Repr

def Event.datagram : Event → Option Datagram
  | .udpSend sourcePort destPort ip payload => some ⟨sourcePort, destPort, ip, payload⟩
  | _ => none

/-- The datagrams that have been given to UDP, the latest first. -/
def sentDatagrams (trace : List Event) : List Datagram := trace.filterMap Event.datagram

variable {arpKept : Prop} {s t : Stack}

theorem Delivering.datagram {event : Event} (h : Delivering event) : Event.datagram event = none := by
  cases event <;> first | rfl | exact h.elim

-- What the senders add to a trace: `f` reads something off the events, and nothing off those that `ip_send` causes.

section Observed

variable {β : Type} {f : Event → Option β}

theorem DeliverFrame.observed (hf : ∀ event, Delivering event → f event = none) (h : DeliverFrame arpKept s t) :
    t.trace.filterMap f = s.trace.filterMap f := by
  obtain ⟨new, htrace, hnew⟩ := h.trace
  have hnone : new.filterMap f = [] := List.filterMap_eq_nil_iff.mpr fun event he => hf event (hnew event he)
  rw [htrace, List.filterMap_append, hnone, List.nil_append]

/-- The datagram is observed first, and what follows only delivers it. -/
theorem udpSendZeroCopy_observed (hf : ∀ event, Delivering event → f event = none) {packet : PacketId}
    {sourcePort destPort : Port} {ip : Ip} {b : β}
    (hb : f (.udpSend sourcePort destPort ip (s.packets packet).payload) = some b) :
    wp (udpSendZeroCopy packet sourcePort destPort ip)
      (fun _ t => t.trace.filterMap f = b :: s.trace.filterMap f)
      (fun _ t => t.trace.filterMap f = b :: s.trace.filterMap f) s := by
  have hadded : ∀ new : List Event, (∀ event ∈ new, f event = none) →
      (new ++ .udpSend sourcePort destPort ip (s.packets packet).payload :: s.trace).filterMap f =
        b :: s.trace.filterMap f := by
    intro new hnew
    rw [List.filterMap_append, List.filterMap_eq_nil_iff.mpr hnew, List.filterMap_cons_some hb, List.nil_append]
  unfold udpSendZeroCopy
  simp only [wp_bind, wp_getPacket, wp_emit, wp_modifyPacket, wp_recordWindow, wp_get]
  have hwindow : ∀ site index length size, f (.window site index length size) = none :=
    fun site index length size => hf _ trivial
  apply wp_mono (ipSend_delivers packet ip ipProtocolUdp _)
  · intro _ t ht
    rw [ht.observed hf]
    exact hadded [_] fun event he => by rw [List.mem_singleton.mp he, hwindow]
  · intro _ t ht
    rw [ht.1.observed hf]
    exact hadded [_] fun event he => by rw [List.mem_singleton.mp he, hwindow]

/-- The senders pass on the bytes they were given. -/
theorem sendTftpPacket_observed (hf : ∀ event, Delivering event → f event = none) {connection : TftpConnection}
    {destPort : Port} {bytes : List UInt8} {b : β}
    (hb : f (.udpSend connection.clientPort destPort connection.serverIp bytes) = some b) (s : Stack) :
    wp (sendTftpPacket connection destPort bytes)
      (fun _ t => t.trace.filterMap f = b :: s.trace.filterMap f)
      (fun _ t => t.trace.filterMap f = s.trace.filterMap f ∨ t.trace.filterMap f = b :: s.trace.filterMap f) s := by
  unfold sendTftpPacket
  rw [wp_bind]
  apply wp_mono (allocateNetworkPacket_delivers s : wp _ (fun _ t => DeliverFrame True s t) _ s)
  · intro packet t ht
    have hbefore := ht.observed hf
    simp only [wp_bind, wp_modifyPacket]
    have hpayload := readBytes_writeBytes bytes (t.packets packet).index (t.packets packet).data
    apply wp_mono (udpSendZeroCopy_observed hf (b := b) ?_)
    · intro _ u hu
      rw [hu]
      exact congrArg _ hbefore
    · intro _ u hu
      rw [hu]
      exact .inr (congrArg _ hbefore)
    · simpa [NetworkPacket.payload, hpayload] using hb
  · intro _ t ht
    exact .inl (ht.1.observed hf)

end Observed

/-- One datagram, with these bytes. -/
theorem sendTftpPacket_sent (connection : TftpConnection) (destPort : Port) (bytes : List UInt8) (s : Stack) :
    wp (sendTftpPacket connection destPort bytes)
      (fun _ t => sentDatagrams t.trace =
        ⟨connection.clientPort, destPort, connection.serverIp, bytes⟩ :: sentDatagrams s.trace)
      (fun _ t => sentDatagrams t.trace = sentDatagrams s.trace ∨ sentDatagrams t.trace =
        ⟨connection.clientPort, destPort, connection.serverIp, bytes⟩ :: sentDatagrams s.trace) s :=
  sendTftpPacket_observed (fun _ h => h.datagram) rfl s

end MiniIp.Invariant
