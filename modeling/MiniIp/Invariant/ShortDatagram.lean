import MiniIp.Invariant.Reception
import MiniIp.Invariant.SoundRun

/-!
# A queued datagram is shorter than a buffer

A frame is at most 1024 bytes long, and the layers only take their headers off it.
-/

set_option autoImplicit false

namespace MiniIp.Invariant

open MiniIp.Source MiniIp.Library.Runs MiniIp.Library.Wp

variable {application : Application} {time : Time} {entropy : ℕ → UInt32} {s : Stack} {content : NetworkPacket}
  {port : Port}

/-- A datagram is shorter than a buffer. -/
def shortContent : QueueContent := fun _ _ _ content => content.length ≤ 1024

theorem brings_short (s : Stack) : Brings shortContent s := by
  intro frame hframe _ _ _ _
  have hlength : frame.length ≤ 1024 := by
    unfold nextFrame at hframe
    dsimp only at hframe
    split at hframe
    · cases hframe
    · rw [Option.map_eq_some_iff] at hframe
      obtain ⟨p, _, rfl⟩ := hframe
      have hlt := (s.gmac.rxDescriptors s.gmac.rxIndex).length.isLt
      show ((s.gmac.rxDescriptors s.gmac.rxIndex).length.val : Int) ≤ 1024
      omega
  have hheader : 0 ≤ ipHeaderLength (macStripped frame).data (macStripped frame).index := by
    unfold ipHeaderLength
    omega
  have htrimmed : trimmedLength (macStripped frame) ≤ (macStripped frame).length := by
    unfold trimmedLength
    dsimp only
    split
    · omega
    · omega
  have hstripped : (macStripped frame).length = frame.length - 14 := rfl
  show trimmedLength (macStripped frame) - ipHeaderLength (macStripped frame).data (macStripped frame).index - 8 ≤ 1024
  omega

/-- In every reachable state the datagrams in the queues are no longer than a buffer. -/
theorem reached_short (h : Reaches Op.exec (fun _ _ => True) (booted application time entropy) s) :
    Intact False shortContent s := by
  apply h.invariant (I := Intact False shortContent) ⟨0, [], booted_sound⟩
  intro s op _ hs _
  apply wp_partial (exec_intact hs False.elim fun _ => brings_short s)
  intro _ t ht
  exact ht

theorem Intact.short (h : Intact False shortContent s) (hhead : headDatagram s port = some content) :
    content.length ≤ 1024 := by
  obtain ⟨_, _, hs⟩ := h
  rw [headDatagram, Option.map_eq_some_iff] at hhead
  obtain ⟨⟨c, p⟩, hqueue, rfl⟩ := hhead
  obtain ⟨_, _, hcons⟩ := queueHead_some hqueue
  apply hs.udpContent c p
  rw [hcons]
  exact List.mem_cons_self

end MiniIp.Invariant
