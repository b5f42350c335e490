import MiniIp.Library.Within
import MiniIp.Source.System

/-!
# The parts of the DHCP client

A call of the client sends a packet if it is time to, looks for a datagram, assigns to the state of the client, and goes
over to another state. What holds of these parts, and of two computations one after the other where it holds of both,
holds of the whole call. So the client is walked through here once, and a property of its parts is all that is asked
elsewhere. A call sends before all else: what follows the sending is named, for the properties that tell the two apart.
-/

set_option autoImplicit false

namespace MiniIp.Invariant

open MiniIp.Source MiniIp.Library.Wp

/-- A property of computations that values have and sequences keep. -/
structure Sequential (P : ∀ ⦃α : Type⦄, Net α → Prop) : Prop where
  value : ∀ {α : Type} (a : α), P (pure a : Net α)
  state : P (get : Net Stack)
  next : ∀ {α β : Type} {x : Net α} {f : α → Net β}, P x → (∀ a, P (f a)) → P (x >>= f)

/-- It holds where the client reads, and where it goes over to one of the states `enters`. -/
structure AnswerParts (enters : DhcpState → Prop) (P : ∀ ⦃α : Type⦄, Net α → Prop) : Prop extends Sequential P where
  read : P dhcpRead
  assign : ∀ f : Dhcp → Dhcp, P (modifyDhcp f)
  offer : P (emit .dhcpOffer)
  ack : P (emit .dhcpAck)
  enter : ∀ state, enters state → P (emit (.dhcpState state))

/-- It holds too where the client sends, and where it configures the host. -/
structure ClientParts (enters : DhcpState → Prop) (P : ∀ ⦃α : Type⦄, Net α → Prop) : Prop extends
    AnswerParts enters P where
  send : ∀ type, P (dhcpSendPacket type)
  draw : P random
  address : ∀ ip, P (setOurIp ip)
  netmask : ∀ netmask, P (setOurNetmask netmask)

variable {P : ∀ ⦃α : Type⦄, Net α → Prop} {enters : DhcpState → Prop} {state : DhcpState}

theorem Sequential.either {α : Type} {c : Prop} [Decidable c] {x y : Net α} (hx : P x) (hy : P y) :
    P (if c then x else y) := by
  split
  · exact hx
  · exact hy

/-- Staying within a relation is such a property. -/
theorem Within.sequential {R : Stack → Stack → Prop} [Std.Refl R] [IsTrans Stack R] (H : Halt → Stack → Prop) :
    Sequential fun _ x => Within R H x := ⟨Within.pure, Within.get, Within.bind⟩

theorem getTime_of (h : Sequential P) : P getTime := h.next h.state fun _ => h.value _

/-- What `dhcp_read` consists of. -/
theorem dhcpRead_of (h : Sequential P) (htake : P (udpReceiveZeroCopy dhcpClientPort))
    (hpacket : ∀ packet, P (getPacket packet)) (hoptions : ∀ options, P (modify fun s => s.setOptions options))
    (hfree : ∀ packet, P (freeNetworkPacket packet)) : P dhcpRead := by
  refine h.next htake fun taken => ?_
  cases taken with
  | none => exact h.value _
  | some packet =>
    exact h.next (hpacket packet) fun _ => h.next h.state fun _ => h.next (hoptions _) fun _ =>
      h.next (hfree packet) fun _ => h.value _

section Answer

variable (h : AnswerParts enters P)

include h

theorem tryReadOffer_of : P tryReadOffer := by
  refine h.next h.read fun _ => Sequential.either (h.value _) (h.next h.state fun _ => Sequential.either (h.value _) ?_)
  exact h.next (h.assign _) fun _ => h.next h.offer fun _ => h.value _

theorem tryReadAck_of : P tryReadAck := by
  have htaken : ∀ options : DhcpOptions, P (do
      let now ← getTime
      modifyDhcp fun d => { d with time := now, leaseTime := options.leaseTime * 1000 }
      emit .dhcpAck
      return some true) := fun _ => h.next (getTime_of h.toSequential) fun _ => h.next (h.assign _) fun _ =>
    h.next h.ack fun _ => h.value _
  refine h.next h.read fun _ => Sequential.either (h.value _) (h.next h.state fun _ => h.next h.state fun _ => ?_)
  exact Sequential.either (h.value _) (Sequential.either (h.value _) (Sequential.either (h.value _)
    (Sequential.either (h.value _) (htaken _))))

theorem setDhcpState_of (hstate : enters state) : P (setDhcpState state) :=
  h.next (h.assign _) fun _ => h.enter state hstate

/-- The client goes over to a state and starts the timeouts again. -/
theorem enterState_of (hstate : enters state) : P (do setDhcpState state; resetDhcpBackoff) :=
  h.next (setDhcpState_of h hstate) fun _ => h.assign _

end Answer

/-- What follows the sending in `DHCP_DISCOVER`. -/
def afterDiscover : Net Unit := do
  if (← tryReadOffer) then
    setDhcpState .requesting
    resetDhcpBackoff

/-- What follows it in `DHCP_REQUESTING`. -/
def afterRequest : Net Unit := do
  match (← tryReadAck) with
  | none => pure ()
  | some true =>
    setDhcpState .bound
    setOurIp (← get).dhcp.leasedIp
    setOurNetmask (← get).dhcp.netmask
  | some false =>
    modifyDhcp fun d => { d with aquisitionCount := d.aquisitionCount + 1 }
    setDhcpState .discover
    resetDhcpBackoff

/-- What follows it in `DHCP_RENEWING`. -/
def afterRenew : Net Unit := do
  match (← tryReadAck) with
  | none => pure ()
  | some true => setDhcpState .bound
  | some false => setDhcpState .discover

theorem dhcpDiscoverTask_eq : dhcpDiscoverTask = (dhcpSendOnTimeout .discover >>= fun _ => afterDiscover) := rfl

theorem dhcpRequestingTask_eq : dhcpRequestingTask = (dhcpSendOnTimeout .request >>= fun _ => afterRequest) := rfl

theorem dhcpRenew_eq : dhcpRenew = (dhcpSendOnTimeout .renew >>= fun _ => afterRenew) := rfl

theorem afterDiscover_of (h : AnswerParts enters P) (hrequesting : enters .requesting) : P afterDiscover :=
  h.next (tryReadOffer_of h) fun _ => Sequential.either (enterState_of h hrequesting) (h.value _)

theorem afterRequest_of (h : AnswerParts enters P) (haddress : ∀ ip, P (setOurIp ip))
    (hnetmask : ∀ netmask, P (setOurNetmask netmask)) (hbound : enters .bound) (hdiscover : enters .discover) :
    P afterRequest := by
  refine h.next (tryReadAck_of h) fun answer => ?_
  match answer with
  | none => exact h.value _
  | some true =>
    exact h.next (setDhcpState_of h hbound) fun _ => h.next h.state fun _ => h.next (haddress _) fun _ =>
      h.next h.state fun _ => hnetmask _
  | some false => exact h.next (h.assign _) fun _ => enterState_of h hdiscover

theorem afterRenew_of (h : AnswerParts enters P) (hbound : enters .bound) (hdiscover : enters .discover) :
    P afterRenew := by
  refine h.next (tryReadAck_of h) fun answer => ?_
  match answer with
  | none => exact h.value _
  | some true => exact setDhcpState_of h hbound
  | some false => exact setDhcpState_of h hdiscover

/-- A state that only waits for its time to come. -/
theorem dhcpBoundTask_of (h : AnswerParts enters P) (hrenewing : enters .renewing) : P dhcpBoundTask :=
  h.next h.state fun _ => h.next (getTime_of h.toSequential) fun _ =>
    Sequential.either (enterState_of h hrenewing) (h.value _)

theorem dhcpRebindingTask_of (h : AnswerParts enters P) (hdiscover : enters .discover) : P dhcpRebindingTask :=
  h.next h.state fun _ => h.next (getTime_of h.toSequential) fun _ =>
    Sequential.either (enterState_of h hdiscover) (h.value _)

theorem dhcpSendOnTimeout_of (h : ClientParts enters P) (type : DhcpPacketType) : P (dhcpSendOnTimeout type) := by
  have htime := getTime_of h.toSequential
  refine h.next h.state fun _ => h.next htime fun _ => Sequential.either ?_ (h.value _)
  exact h.next (h.send type) fun _ => h.next h.draw fun _ => h.next htime fun _ => h.assign _

theorem dhcpRenewingTask_of (h : ClientParts enters P) (hbound : enters .bound) (hdiscover : enters .discover)
    (hrebinding : enters .rebinding) : P dhcpRenewingTask := by
  have hrenew : P dhcpRenew := by
    rw [dhcpRenew_eq]
    exact h.next (dhcpSendOnTimeout_of h _) fun _ => afterRenew_of h.toAnswerParts hbound hdiscover
  refine h.next h.state fun _ => h.next (getTime_of h.toSequential) fun _ => Sequential.either ?_ hrenew
  exact h.next (setDhcpState_of h.toAnswerParts hrebinding) fun _ => hrenew

/-- One call of `dhcp_task`, state by state. -/
theorem dhcpTask_of (h : ClientParts enters P) (hall : ∀ state, enters state) : P dhcpTask := by
  have hanswer := h.toAnswerParts
  refine h.next h.state fun s => ?_
  split
  · exact h.value _
  · rw [dhcpDiscoverTask_eq]
    exact h.next (dhcpSendOnTimeout_of h _) fun _ => afterDiscover_of hanswer (hall _)
  · rw [dhcpRequestingTask_eq]
    exact h.next (dhcpSendOnTimeout_of h _) fun _ => afterRequest_of hanswer h.address h.netmask (hall _) (hall _)
  · exact dhcpBoundTask_of hanswer (hall _)
  · exact dhcpRenewingTask_of h (hall _) (hall _) (hall _)
  · exact dhcpRebindingTask_of hanswer (hall _)
  · exact h.value _

end MiniIp.Invariant
