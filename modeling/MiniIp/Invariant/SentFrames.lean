import MiniIp.Invariant.Headers
import MiniIp.Invariant.Frame

/-!
# The frames that are sent

`passedToMac` and `sentFrames` read off a trace what was passed to `mac_send` and
which frames were handed to `gmac_send`, newest first. `MacSent` is all that a
call of `mac_send` does to them.
-/

set_option autoImplicit false

namespace MiniIp.Invariant

open MiniIp.Source MiniIp.Library.Wp

def Event.frame : Event → Option (List UInt8)
  | .gmacSend _ frame => some frame
  | _ => none

/-- The frames that have been given to `gmac_send`, the latest first. -/
def sentFrames (trace : List Event) : List (List UInt8) := trace.filterMap Event.frame

def Event.passed : Event → Option (PacketId × Mac × UInt16)
  | .macSend packet mac etherType => some (packet, mac, etherType)
  | _ => none

/-- The packets that have been given to `mac_send`, the latest first. -/
def passedToMac (trace : List Event) : List (PacketId × Mac × UInt16) := trace.filterMap Event.passed

/-- `mac_send` has been called with the packet, and has handed it over as a frame. -/
structure MacSent (packet : PacketId) (mac : Mac) (etherType : UInt16) (s t : Stack) : Prop where
  passed : passedToMac t.trace = (packet, mac, etherType) :: passedToMac s.trace
  frames : sentFrames t.trace = (macFramed mac s.ourMac etherType (s.packets packet)).payload :: sentFrames s.trace
  arp : t.arp = s.arp
  unsent : unsent t = unsent s
  packets : ∀ q, q ≠ packet → t.packets q = s.packets q

variable {s t : Stack} {packet : PacketId} {mac : Mac} {etherType : UInt16}

@[simp] theorem sentFrames_append (new trace : List Event) :
    sentFrames (new ++ trace) = sentFrames new ++ sentFrames trace := List.filterMap_append

/-- Events that are no frames. -/
theorem sentFrames_quiet {new : List Event} (h : ∀ event ∈ new, Event.frame event = none) (trace : List Event) :
    sentFrames (new ++ trace) = sentFrames trace := by
  have hnone : sentFrames new = [] := List.filterMap_eq_nil_iff.mpr h
  rw [sentFrames_append, hnone, List.nil_append]

/-- The frame has been handed over. -/
structure GmacSent (packet : PacketId) (s t : Stack) : Prop where
  passed : passedToMac t.trace = passedToMac s.trace
  frames : sentFrames t.trace = (s.packets packet).payload :: sentFrames s.trace
  arp : t.arp = s.arp
  unsent : unsent t = unsent s
  packets : t.packets = s.packets

theorem gmacSend_sent (packet : PacketId) (s : Stack) :
    wp (gmacSend packet) (fun _ t => GmacSent packet s t) (fun _ t => GmacSent packet s t) s := by
  unfold gmacSend
  simp only [wp_bind, wp_recordWindow, wp_getPacket, wp_emit, wp_get, wp_ite, wp_throw]
  split
  · exact ⟨rfl, rfl, rfl, rfl, rfl⟩
  · split
    · exact ⟨rfl, rfl, rfl, rfl, rfl⟩
    · split
      · exact ⟨rfl, rfl, rfl, rfl, rfl⟩
      · simp only [wp_bind, wp_freeNetworkPacket, wp_modify, wp_getPacket]
        exact ⟨rfl, rfl, rfl, rfl, rfl⟩

/-- The state in which `mac_send` calls `gmac_send`. -/
def handedToGmac (packet : PacketId) (mac : Mac) (etherType : UInt16) (s : Stack) : Stack :=
  { s.write packet (macFramed mac s.ourMac etherType (s.packets packet)) with
    trace := .macSend packet mac etherType ::
      .window .macSend ((s.packets packet).index - macHeaderSize) ((s.packets packet).length + macHeaderSize)
        macHeaderSize :: s.trace }

theorem macSend_hands (packet : PacketId) (mac : Mac) (etherType : UInt16) (s : Stack) :
    macSend packet mac etherType s = gmacSend packet (handedToGmac packet mac etherType s) := by
  apply eq_of_wp
  intro Q E h
  unfold macSend at h
  simp only [wp_bind, wp_modifyPacket, wp_recordWindow, wp_get, wp_emit, Stack.write_packets, Stack.observe_packets,
    Function.update_self] at h
  simp only [Stack.write, Stack.observe, Function.update_idem] at h
  exact h

theorem MacSent.ofGmac (h : GmacSent packet (handedToGmac packet mac etherType s) t) :
    MacSent packet mac etherType s t := by
  have hpacket : (handedToGmac packet mac etherType s).packets packet =
      macFramed mac s.ourMac etherType (s.packets packet) := Function.update_self _ _ _
  constructor
  · exact h.passed
  · rw [h.frames, hpacket]
    rfl
  · exact h.arp
  · exact h.unsent
  · intro q hq
    rw [h.packets]
    exact Function.update_of_ne hq _ _

/-- The header is put in front, and the frame is given to `gmac_send`, also where the call then stops. -/
theorem macSend_sent (packet : PacketId) (mac : Mac) (etherType : UInt16) (s : Stack) :
    wp (macSend packet mac etherType) (fun _ t => MacSent packet mac etherType s t)
      (fun _ t => MacSent packet mac etherType s t) s := by
  unfold wp
  rw [macSend_hands]
  apply wp_mono (gmacSend_sent packet _)
  · intro _ t ht
    exact .ofGmac ht
  · intro _ t ht
    exact .ofGmac ht

end MiniIp.Invariant
