import MiniIp.Invariant.ClientPairs

/-!
# The same datagram in two buffers

`dhcp_read` (dhcp.c:249-336) checks no minimum length, and looks at the next option before it
looks at the number of bytes left. What it finds behind the payload is then the
residue of an earlier frame. A datagram without a byte of options is refused
whatever the residue is, and of every other one the code looks at the payload only.
-/

set_option autoImplicit false

namespace MiniIp.Invariant

open MiniIp.Source MiniIp.Library.Wp

/-- The same datagram in two buffers, which may differ outside of the payload. -/
structure SameDatagram (p p' : NetworkPacket) : Prop where
  index : p.index = p'.index
  length : p.length = p'.length
  bytes : SameBytes p.data p'.data p.index p.length

/-- Both runs find the same datagram in the client's queue, or none. -/
def SameHeads (s t : Stack) : Prop :=
  Option.Rel SameDatagram (headDatagram s dhcpClientPort) (headDatagram t dhcpClientPort)

/-- The client in two runs. The mask and the address of the record are set before they are used. -/
structure Alike (c c' : Client) : Prop where
  dhcp : c.dhcp = c'.dhcp
  ours : c.ourIp = c'.ourIp ∧ c.ourNetmask = c'.ourNetmask
  netmask : c.options.netmask = c'.options.netmask
  serverIp : c.options.serverIp = c'.options.serverIp
  messageType : c.options.messageType = c'.options.messageType
  leaseTime : c.options.leaseTime = c'.options.leaseTime

variable {c c' : Client} {p p' : NetworkPacket} {ourMac : Mac} {now : Time}
  {head head' : Option NetworkPacket} {transactionId : UInt32} {o : DhcpOptions}

/-- `dhcp_read` finds nothing that could be accepted. -/
def Useless (result : Bool × Client) : Prop :=
  result.1 = false ∨ result.2.options.mask = 0

theorem readMac_congr {memory memory' : Memory} {pointer : Int}
    (h : SameBytes memory memory' pointer 6) : readMac memory pointer = readMac memory' pointer := by
  unfold readMac
  congr 2
  funext i
  exact h _ (by omega) (by omega)

theorem verifyDhcpHeader_congr {memory memory' : Memory} {header : Int}
    (h : SameBytes memory memory' header 240) :
    verifyDhcpHeader transactionId ourMac memory header =
      verifyDhcpHeader transactionId ourMac memory' header := by
  have hcookie : SameBytes memory memory' (header + 236) 4 := h.sub (by omega) (by omega)
  have hid : SameBytes memory memory' (header + 4) 4 := h.sub (by omega) (by omega)
  have hmac : SameBytes memory memory' (header + 28) 6 := h.sub (by omega) (by omega)
  unfold verifyDhcpHeader
  rw [h header (by omega) (by omega), h (header + 1) (by omega) (by omega),
    h (header + 2) (by omega) (by omega), hcookie.readBe32, hid.readBe32, readMac_congr hmac]

/-- `dhcp_read` looks at the bytes of the datagram and at its length. -/
theorem readDhcpPacket_congr (transactionId : UInt32) (ourMac : Mac) (h : SameDatagram p p') (hlong : 240 < p.length)
    {o' : DhcpOptions} (hnetmask : o.netmask = o'.netmask) (hserver : o.serverIp = o'.serverIp)
    (htype : o.messageType = o'.messageType) (hlease : o.leaseTime = o'.leaseTime) :
    ((readDhcpPacket transactionId ourMac p o).1 = false ∧
      (readDhcpPacket transactionId ourMac p' o').1 = false ∧
      (readDhcpPacket transactionId ourMac p o).2 = o ∧
      (readDhcpPacket transactionId ourMac p' o').2 = o') ∨
    readDhcpPacket transactionId ourMac p o = readDhcpPacket transactionId ourMac p' o' := by
  have hheader : SameBytes p.data p'.data p.index 240 := h.bytes.sub (by omega) (by omega)
  have hoptions : SameBytes p.data p'.data (p.index + dhcpHeaderSize) (p.length - dhcpHeaderSize) :=
    h.bytes.sub (by unfold dhcpHeaderSize; omega) (by omega)
  have hip : SameBytes p.data p'.data (p.index + 16) 4 := h.bytes.sub (by omega) (by omega)
  unfold readDhcpPacket
  rw [← h.index, ← h.length, verifyDhcpHeader_congr hheader]
  split
  · exact .inl ⟨rfl, rfl, rfl, rfl⟩
  · right
    dsimp only
    rw [readOptions_congr _ (by unfold dhcpHeaderSize; omega) hoptions, hip.readBe32, hnetmask, hserver, htype,
      hlease]

theorem Alike.symm (h : Alike c c') : Alike c' c :=
  ⟨h.dhcp.symm, ⟨h.ours.1.symm, h.ours.2.symm⟩, h.netmask.symm, h.serverIp.symm, h.messageType.symm,
    h.leaseTime.symm⟩

theorem Alike.trans {c'' : Client} (h : Alike c c') (h' : Alike c' c'') : Alike c c'' :=
  ⟨h.dhcp.trans h'.dhcp, ⟨h.ours.1.trans h'.ours.1, h.ours.2.trans h'.ours.2⟩, h.netmask.trans h'.netmask,
    h.serverIp.trans h'.serverIp, h.messageType.trans h'.messageType, h.leaseTime.trans h'.leaseTime⟩

theorem read_short (c : Client) (ourMac : Mac) (hshort : ∀ p ∈ head, p.length ≤ 240) :
    Alike (c.read ourMac head).2 c ∧ Useless (c.read ourMac head) := by
  have hrefl : Alike c c := ⟨rfl, ⟨rfl, rfl⟩, rfl, rfl, rfl, rfl⟩
  cases head with
  | none => exact ⟨hrefl, .inl rfl⟩
  | some p =>
    rcases readDhcpPacket_short c.dhcp.transactionId ourMac c.options (hshort p rfl) with hno | hunmarked
    · simp only [Client.read, hno]
      exact ⟨hrefl, .inl rfl⟩
    · simp only [Client.read, Useless, hunmarked]
      exact ⟨⟨rfl, ⟨rfl, rfl⟩, rfl, rfl, rfl, rfl⟩, .inr trivial⟩

/-- `dhcp_read` in two runs: the same result, or nothing that could be accepted in either. -/
theorem read_alike (ourMac : Mac) (h : Alike c c') (hhead : Option.Rel SameDatagram head head') :
    Alike (c.read ourMac head).2 (c'.read ourMac head').2 ∧
      (Useless (c.read ourMac head) ∧ Useless (c'.read ourMac head') ∨
        c.read ourMac head = c'.read ourMac head') := by
  cases hhead with
  | none => exact ⟨h, .inl ⟨.inl rfl, .inl rfl⟩⟩
  | some hsame =>
    next p p' =>
    by_cases hlong : 240 < p.length
    · rcases readDhcpPacket_congr c.dhcp.transactionId ourMac hsame hlong h.netmask h.serverIp
        h.messageType h.leaseTime with ⟨hno, hno', hkept, hkept'⟩ | heq
      · rw [h.dhcp] at hno' hkept'
        constructor
        · simp only [Client.read, hkept, hkept']
          exact h
        · exact .inl ⟨.inl hno, .inl hno'⟩
      · have hread : c.read ourMac (some p) = c'.read ourMac (some p') := by
          simp only [Client.read]
          rw [heq, ← h.dhcp, ← h.ours.1, ← h.ours.2]
        constructor
        · rw [hread]
          exact ⟨rfl, ⟨rfl, rfl⟩, rfl, rfl, rfl, rfl⟩
        · exact .inr hread
    · have hshort : p.length ≤ 240 := by omega
      have hshorts : ∀ q : NetworkPacket, q.length ≤ 240 → ∀ r ∈ some q, r.length ≤ 240 :=
        fun q hq r hr => Option.some.inj hr ▸ hq
      obtain ⟨hkept, huseless⟩ := read_short c ourMac (hshorts p hshort)
      obtain ⟨hkept', huseless'⟩ := read_short c' ourMac (hshorts p' (hsame.length ▸ hshort))
      exact ⟨(hkept.trans h).trans hkept'.symm, .inl ⟨huseless, huseless'⟩⟩

/-- The assignments of the client keep the two clients alike. -/
theorem alike_congruence : Congruence Alike where
  dhcp h := h.dhcp
  setDhcp _ h := ⟨rfl, h.ours, h.netmask, h.serverIp, h.messageType, h.leaseTime⟩
  setIp _ h := ⟨h.dhcp, ⟨rfl, h.ours.2⟩, h.netmask, h.serverIp, h.messageType, h.leaseTime⟩
  setNetmask _ h := ⟨h.dhcp, ⟨h.ours.1, rfl⟩, h.netmask, h.serverIp, h.messageType, h.leaseTime⟩

theorem Alike.refl (c : Client) : Alike c c := ⟨rfl, ⟨rfl, rfl⟩, rfl, rfl, rfl, rfl⟩

/-- A useless read accepts no offer. -/
theorem tryReadOffer_useless (h : Useless (c.read ourMac head)) :
    c.tryReadOffer ourMac head = ((c.read ourMac head).2, .nothing) := by
  unfold Client.tryReadOffer
  apply if_neg
  rintro ⟨hread, hmask, _⟩
  rcases h with hno | hunmarked
  · rw [hno] at hread
    cases hread
  · rw [hunmarked] at hmask
    revert hmask
    decide

/-- Where it finds nothing of use, the client has only read. -/
theorem tryReadAck_useless (h : Useless (c.read ourMac head)) :
    c.tryReadAck ourMac now head = ((c.read ourMac head).2, .nothing) := by
  unfold Client.tryReadAck
  rcases h with hno | hunmarked
  · exact if_pos hno
  · have hanswer : (c.read ourMac head).2.answer = .nothing := by
      unfold Client.answer
      apply if_pos
      rw [hunmarked]
      decide
    simp only [hanswer, reduceCtorEq, if_false, ite_self]

theorem tryReadOffer_alike (ourMac : Mac) (h : Alike c c') (hhead : Option.Rel SameDatagram head head') :
    SameResult Alike (c.tryReadOffer ourMac head) (c'.tryReadOffer ourMac head') := by
  obtain ⟨halike, huseless | heq⟩ := read_alike ourMac h hhead
  · rw [tryReadOffer_useless huseless.1, tryReadOffer_useless huseless.2]
    exact ⟨halike, rfl⟩
  · simp only [Client.tryReadOffer, heq]
    exact ⟨.refl _, rfl⟩

theorem tryReadAck_alike (ourMac : Mac) (now : Time) (h : Alike c c') (hhead : Option.Rel SameDatagram head head') :
    SameResult Alike (c.tryReadAck ourMac now head) (c'.tryReadAck ourMac now head') := by
  obtain ⟨halike, huseless | heq⟩ := read_alike ourMac h hhead
  · rw [tryReadAck_useless huseless.1, tryReadAck_useless huseless.2]
    exact ⟨halike, rfl⟩
  · simp only [Client.tryReadAck, heq]
    exact ⟨.refl _, rfl⟩

theorem takenFor_same {kind outcome : Outcome} (hhead : Option.Rel SameDatagram head head')
    {past past' : List NetworkPacket} (h : List.Forall₂ SameDatagram past past') :
    List.Forall₂ SameDatagram (takenFor kind outcome head ++ past) (takenFor kind outcome head' ++ past') := by
  unfold takenFor
  split
  · cases hhead with
    | none => exact h
    | some hsame => exact .cons hsame h
  · exact h

theorem task_short (hshort : ∀ p ∈ head, p.length ≤ 240) :
    (c.task ourMac now head).2 = .nothing := by
  have huseless : ∀ c : Client, Useless (c.read ourMac head) := fun c => (read_short c ourMac hshort).2
  have hrenew : ∀ c : Client, (c.renew ourMac now head).2 = .nothing := by
    intro c
    simp only [Client.renew, tryReadAck_useless (huseless c), reduceCtorEq, if_false]
  unfold Client.task
  cases c.dhcp.state with
  | disabled => rfl
  | error => rfl
  | discover => simp only [Client.discover, tryReadOffer_useless (huseless c), reduceCtorEq, if_false]
  | requesting => simp only [Client.requesting, tryReadAck_useless (huseless c), reduceCtorEq, if_false]
  | bound => rfl
  | renewing => exact hrenew _
  | rebinding => rfl

theorem sameBytes_of_readBytes {memory memory' : Memory} {start : Int} {size : ℕ}
    (h : readBytes memory start size = readBytes memory' start size) : SameBytes memory memory' start size := by
  induction size generalizing start with
  | zero =>
    intro i hi hlt
    omega
  | succ size ih =>
    obtain ⟨hfirst, hrest⟩ := List.cons_eq_cons.mp h
    intro i hi hlt
    by_cases heq : i = start
    · rw [heq]
      exact hfirst
    · exact ih hrest i (by omega) (by omega)

/-- The datagrams have the same payload. -/
def headsGuard : Option NetworkPacket → Option NetworkPacket → Bool
  | none, none => true
  | some p, some p' => 0 ≤ p.length ∧ p.index = p'.index ∧ p.length = p'.length ∧ p.payload = p'.payload
  | _, _ => false

theorem sameDatagram_of_guard (h : headsGuard head head' = true) : Option.Rel SameDatagram head head' := by
  cases head with
  | none =>
    cases head' with
    | none => exact .none
    | some p' => cases h
  | some p =>
    cases head' with
    | none => cases h
    | some p' =>
      obtain ⟨hpositive, hindex, hlength, hpayload⟩ := of_decide_eq_true h
      unfold NetworkPacket.payload at hpayload
      rw [← hindex, ← hlength] at hpayload
      have hbytes := sameBytes_of_readBytes hpayload
      rw [Int.toNat_of_nonneg hpositive] at hbytes
      exact .some ⟨hindex, hlength, hbytes⟩

end MiniIp.Invariant
