import MiniIp.Invariant.Lease
import MiniIp.Invariant.OptionGrammar
import MiniIp.Invariant.SameDatagram

/-!
# The answers to a request

What `try_read_ack` takes for a NACK, and what for an ACK, in terms of what `dhcp_read` finds in the options. By
their grammar they may say something else, where they begin with a pad.
-/

set_option autoImplicit false

namespace MiniIp.Invariant

open MiniIp.Source MiniIp.Library.TagLength

/-- What `dhcp_read` takes for a NACK, as the client accepts it: with a lease time, and from any server. -/
def NackFor (c : Client) (ourMac : Mac) (p : NetworkPacket) (serverIp : Ip) : Prop :=
  ∃ f, ReadAs c.dhcp.transactionId ourMac p f ∧ f.serverIp = some serverIp ∧ f.leaseTime.isSome ∧
    f.messageType = some dhcpMessageTypeNack

/-- What `dhcp_read` takes for an ACK for the lease of the client. Where it finds no netmask, the record stands for it. -/
def AckFor (c : Client) (ourMac : Mac) (p : NetworkPacket) (leaseTime : Time) : Prop :=
  ∃ f, ReadAs c.dhcp.transactionId ourMac p f ∧ f.serverIp = some c.dhcp.serverIp ∧ f.leaseTime = some leaseTime ∧
    f.messageType = some dhcpMessageTypeAck ∧ f.netmask.getD c.options.netmask = c.dhcp.netmask ∧
    readBe32 p.data (p.index + 16) = c.dhcp.leasedIp

variable {c : Client} {ourMac : Mac} {now : Time} {head : Option NetworkPacket} {p : NetworkPacket} {f : Found}
  {o : DhcpOptions}

/-- The client with the record of a packet. -/
def recorded (c : Client) (p : NetworkPacket) (f : Found) : Client :=
  { c with options := f.record (clearedOptions p c.options) }

theorem recorded_mask (c : Client) (p : NetworkPacket) (f : Found) : (recorded c p f).options.mask = f.mask :=
  Nat.zero_or f.mask

theorem answer_eq_nack_iff (c : Client) :
    c.answer = .nack ↔ c.options.mask &&& expectedMask = expectedMask ∧
      c.options.messageType = dhcpMessageTypeNack := by
  unfold Client.answer
  split_ifs <;> simp_all

theorem answer_eq_ack_iff (c : Client) :
    c.answer = .ack ↔ c.options.mask &&& expectedMask = expectedMask ∧ c.options.messageType = dhcpMessageTypeAck ∧
      c.options.netmask = c.dhcp.netmask ∧ c.options.serverIp = c.dhcp.serverIp ∧
      c.options.yourIp = c.dhcp.leasedIp := by
  constructor
  · exact answer_ack
  · rintro ⟨hmask, htype, hlease⟩
    have hnack : c.options.messageType ≠ dhcpMessageTypeNack := by
      rw [htype]
      decide
    unfold Client.answer
    rw [if_neg (not_not.mpr hmask), if_neg hnack, if_neg (not_not.mpr htype)]
    apply if_neg
    simp only [hlease, ne_eq, not_true_eq_false, or_self, not_false_eq_true]

/-- What is present has its value. -/
theorem getD_eq_iff {α : Type} {x : Option α} {a b : α} (h : x.isSome = true) : x.getD a = b ↔ x = some b := by
  obtain ⟨d, rfl⟩ := Option.isSome_iff_exists.mp h
  simp

theorem recorded_nack_iff :
    (recorded c p f).answer = .nack ↔
      f.serverIp.isSome ∧ f.leaseTime.isSome ∧ f.messageType = some dhcpMessageTypeNack := by
  rw [answer_eq_nack_iff, recorded_mask, expectedMask_iff]
  constructor
  · rintro ⟨⟨hserver, htype, hlease⟩, hnack⟩
    exact ⟨hserver, hlease, (getD_eq_iff htype).mp hnack⟩
  · rintro ⟨hserver, hlease, hnack⟩
    have htype : f.messageType.isSome = true := by simp [hnack]
    exact ⟨⟨hserver, htype, hlease⟩, (getD_eq_iff htype).mpr hnack⟩

theorem recorded_ack_iff :
    (recorded c p f).answer = .ack ↔
      f.serverIp = some c.dhcp.serverIp ∧ f.leaseTime.isSome ∧ f.messageType = some dhcpMessageTypeAck ∧
        f.netmask.getD c.options.netmask = c.dhcp.netmask ∧ readBe32 p.data (p.index + 16) = c.dhcp.leasedIp := by
  rw [answer_eq_ack_iff, recorded_mask, expectedMask_iff]
  constructor
  · rintro ⟨⟨hserver, htype, hlease⟩, hack, hnetmask, hip, hyour⟩
    exact ⟨(getD_eq_iff hserver).mp hip, hlease, (getD_eq_iff htype).mp hack, hnetmask, hyour⟩
  · rintro ⟨hip, hlease, hack, hnetmask, hyour⟩
    have hserver : f.serverIp.isSome = true := by simp [hip]
    have htype : f.messageType.isSome = true := by simp [hack]
    exact ⟨⟨hserver, htype, hlease⟩, (getD_eq_iff htype).mpr hack, hnetmask, (getD_eq_iff hserver).mpr hip, hyour⟩

/-- A read accepts nothing of use, or it records what the options say. -/
theorem tryReadAck_reads (c : Client) (ourMac : Mac) (now : Time) (head : Option NetworkPacket) :
    ((c.tryReadAck ourMac now head).2 = .nothing ∧ ∀ p f, head = some p → ReadAs c.dhcp.transactionId ourMac p f →
        (recorded c p f).answer = .nothing) ∨
      ∃ p f, head = some p ∧ ReadAs c.dhcp.transactionId ourMac p f ∧
        c.tryReadAck ourMac now head =
          (if (recorded c p f).answer = .ack then ((recorded c p f).takeAck now, .ack)
            else (recorded c p f, (recorded c p f).answer)) := by
  by_cases hshort : ∀ p ∈ head, p.length ≤ 240
  · left
    constructor
    · rw [tryReadAck_useless (read_short c ourMac hshort).2]
    · rintro p f rfl hf
      have hlong := hf.long
      have hle := hshort p rfl
      omega
  cases head with
  | none => simp at hshort
  | some p =>
    have hlong : 240 < p.length := by simpa using hshort
    cases hread : readDhcpPacket c.dhcp.transactionId ourMac p c.options with
    | mk accepted o =>
      cases accepted with
      | true =>
        obtain ⟨f, hf, rfl⟩ := (readDhcpPacket_iff hlong).mp hread
        right
        refine ⟨p, f, rfl, hf, ?_⟩
        simp only [Client.tryReadAck, Client.read, hread, Bool.true_eq_false, if_false]
        rfl
      | false =>
        left
        constructor
        · simp only [Client.tryReadAck, Client.read, hread, if_true]
        · rintro q f ⟨⟩ hf
          have haccepted : readDhcpPacket c.dhcp.transactionId ourMac p c.options = (true, _) :=
            (readDhcpPacket_iff hlong).mpr ⟨f, hf, rfl⟩
          rw [hread] at haccepted
          cases haccepted

/-- `try_read_ack` reports a NACK where it has read one, by the reading of `dhcp_read`. -/
theorem tryReadAck_nack_iff :
    (c.tryReadAck ourMac now head).2 = .nack ↔ ∃ p serverIp, head = some p ∧ NackFor c ourMac p serverIp := by
  rcases tryReadAck_reads c ourMac now head with ⟨hnothing, hnone⟩ | ⟨p, f, rfl, hf, hread⟩
  · rw [hnothing]
    constructor
    · rintro ⟨⟩
    · rintro ⟨p, serverIp, hhead, f, hf, hserver, hlease, htype⟩
      have hanswer := (recorded_nack_iff (c := c) (p := p)).mpr ⟨by simp [hserver], hlease, htype⟩
      rw [hnone p f hhead hf] at hanswer
      cases hanswer
  · have houtcome : (c.tryReadAck ourMac now (some p)).2 = (recorded c p f).answer := by
      rw [hread]
      split
      · next hack => rw [hack]
      · rfl
    rw [houtcome, recorded_nack_iff]
    constructor
    · rintro ⟨hserver, hlease, htype⟩
      obtain ⟨serverIp, hip⟩ := Option.isSome_iff_exists.mp hserver
      exact ⟨p, serverIp, rfl, f, hf, hip, hlease, htype⟩
    · rintro ⟨q, serverIp, ⟨⟩, g, hg, hserver, hlease, htype⟩
      rw [hf.unique hg]
      exact ⟨by simp [hserver], hlease, htype⟩

/-- The lease is extended with the time that the ACK grants. -/
theorem tryReadAck_ack_iff :
    (c.tryReadAck ourMac now head).2 = .ack ↔ ∃ p leaseTime, head = some p ∧ AckFor c ourMac p leaseTime ∧
      ∃ o, c.tryReadAck ourMac now head =
        ({ c with dhcp := { c.dhcp with time := now, leaseTime := leaseTime * 1000 }, options := o }, .ack) := by
  constructor
  · intro hack
    rcases tryReadAck_reads c ourMac now head with ⟨hnothing, _⟩ | ⟨p, f, rfl, hf, hread⟩
    · rw [hnothing] at hack
      cases hack
    · have hanswer : (recorded c p f).answer = .ack := by
        by_contra hnot
        rw [hread, if_neg hnot] at hack
        exact hnot hack
      rw [hread, if_pos hanswer]
      obtain ⟨hserver, hlease, htype, hnetmask, hyour⟩ := recorded_ack_iff.mp hanswer
      obtain ⟨leaseTime, hseconds⟩ := Option.isSome_iff_exists.mp hlease
      refine ⟨p, leaseTime, rfl, ⟨f, hf, hserver, hseconds, htype, hnetmask, hyour⟩, (recorded c p f).options, ?_⟩
      simp only [Client.takeAck, recorded, Found.record, hseconds, Option.getD_some]
  · rintro ⟨_, _, _, _, o, hread⟩
    rw [hread]

/-- An ACK is taken. -/
theorem AckFor.taken {leaseTime : Time} (h : AckFor c ourMac p leaseTime) (now : Time) :
    (c.tryReadAck ourMac now (some p)).2 = .ack := by
  obtain ⟨f, hf, hserver, hlease, htype, hnetmask, hyour⟩ := h
  have hanswer : (recorded c p f).answer = .ack :=
    recorded_ack_iff.mpr ⟨hserver, by simp [hlease], htype, hnetmask, hyour⟩
  rcases tryReadAck_reads c ourMac now (some p) with ⟨_, hnone⟩ | ⟨q, g, ⟨⟩, hg, hread⟩
  · rw [hnone p f rfl hf] at hanswer
    cases hanswer
  · rw [hg.unique hf] at hread
    rw [hread, if_pos hanswer]

/-- What an ACK grants. -/
theorem AckFor.unique {leaseTime leaseTime' : Time} (h : AckFor c ourMac p leaseTime)
    (h' : AckFor c ourMac p leaseTime') : leaseTime = leaseTime' := by
  obtain ⟨f, hf, _, hlease, _⟩ := h
  obtain ⟨f', hf', _, hlease', _⟩ := h'
  rw [hf.unique hf'] at hlease
  exact Option.some.inj (hlease.symm.trans hlease')

/-- The ACK in the record that has been read. -/
theorem ackFor_of_answer (hlong : 240 < p.length) (hread : readDhcpPacket c.dhcp.transactionId ourMac p c.options = (true, o))
    (hanswer : { c with options := o }.answer = .ack) : AckFor c ourMac p o.leaseTime := by
  obtain ⟨f, hf, rfl⟩ := (readDhcpPacket_iff hlong).mp hread
  obtain ⟨hserver, hlease, htype, hnetmask, hyour⟩ := recorded_ack_iff.mp hanswer
  obtain ⟨seconds, hseconds⟩ := Option.isSome_iff_exists.mp hlease
  refine ⟨f, hf, hserver, ?_, htype, hnetmask, hyour⟩
  simp [Found.record, hseconds]

/-- The client waits for the answer to a request. -/
def Awaits (c : Client) : Prop := c.dhcp.state = .requesting ∨ c.dhcp.state = .renewing

/-- The client when the answer is read, the timer behind it. -/
def timed (c : Client) (now : Time) : Client :=
  if c.dhcp.state = .renewing ∧ rebindingExpired c.dhcp now = true then c.setState .rebinding else c

/-- The part of the client that an answer may change. -/
structure Config where
  state : DhcpState
  time : Time
  leaseTime : Time
  ourIp : Ip
  ourNetmask : Ip
  deriving DecidableEq

def config (c : Client) : Config := ⟨c.dhcp.state, c.dhcp.time, c.dhcp.leaseTime, c.ourIp, c.ourNetmask⟩

theorem timed_dhcp (c : Client) (now : Time) : ∃ state, timed c now = c.setState state := by
  unfold timed
  split
  · exact ⟨.rebinding, rfl⟩
  · exact ⟨c.dhcp.state, rfl⟩

theorem nackFor_timed (serverIp : Ip) : NackFor (timed c now) ourMac p serverIp ↔ NackFor c ourMac p serverIp := by
  obtain ⟨state, hstate⟩ := timed_dhcp c now
  rw [hstate]
  rfl

theorem ackFor_timed (leaseTime : Time) : AckFor (timed c now) ourMac p leaseTime ↔ AckFor c ourMac p leaseTime := by
  obtain ⟨state, hstate⟩ := timed_dhcp c now
  rw [hstate]
  rfl

/-- The read is that of the client whose timer has run. -/
theorem task_awaits (h : Awaits c) :
    c.task ourMac now head =
      (if c.dhcp.state = .requesting then c.requesting ourMac now head else (timed c now).renew ourMac now head) := by
  unfold Client.task timed
  rcases h with hstate | hstate
  · simp [hstate]
  · simp [hstate, Client.renewing]

/-- A NACK takes the client back to the beginning. -/
theorem task_nack (h : Awaits c) (hnack : ((timed c now).tryReadAck ourMac now head).2 = .nack) :
    (c.task ourMac now head).1.dhcp.state = .discover := by
  rw [task_awaits h]
  split
  · next hstate =>
    have htimed : timed c now = c := by simp [timed, hstate]
    rw [htimed] at hnack
    simp [Client.requesting, hnack]
  · simp [Client.renew, hnack, Client.setState]

/-- Everything else leaves the lease as it is. -/
theorem task_nothing (h : Awaits c) (hack : ((timed c now).tryReadAck ourMac now head).2 ≠ .ack)
    (hnack : ((timed c now).tryReadAck ourMac now head).2 ≠ .nack) :
    config (c.task ourMac now head).1 = config (timed c now) := by
  have hkept : config ((timed c now).tryReadAck ourMac now head).1 = config (timed c now) := by
    rcases tryReadAck_cases (timed c now) ourMac now head with ⟨o, outcome, _, _, hread⟩ | ⟨_, o, _, _, _, hread⟩
    · rw [hread]
      rfl
    · rw [hread] at hack
      exact absurd rfl hack
  rw [task_awaits h]
  split
  · next hstate =>
    have htimed : timed c now = c := by simp [timed, hstate]
    rw [htimed] at hack hnack hkept ⊢
    rw [Client.requesting, if_neg hack, if_neg hnack]
    exact hkept
  · rw [Client.renew, if_neg hack, if_neg hnack]
    exact hkept

/-- An ACK makes the lease run from now on. -/
theorem task_bound (h : Awaits c) (hack : ((timed c now).tryReadAck ourMac now head).2 = .ack) :
    (c.task ourMac now head).1.dhcp.state = .bound := by
  rw [task_awaits h]
  split
  · next hstate =>
    have htimed : timed c now = c := by simp [timed, hstate]
    rw [htimed] at hack
    simp [Client.requesting, hack, Client.bind]
  · simp [Client.renew, hack, Client.setState]

theorem timed_state (h : Awaits c) (now : Time) :
    (timed c now).dhcp.state = .requesting ∨ (timed c now).dhcp.state = .renewing ∨
      (timed c now).dhcp.state = .rebinding := by
  unfold timed
  split
  · exact .inr (.inr rfl)
  · rcases h with hstate | hstate
    · exact .inl hstate
    · exact .inr (.inl hstate)

theorem timed_nack_iff (now : Time) : ((timed c now).tryReadAck ourMac now (some p)).2 = .nack ↔
    ∃ serverIp, NackFor c ourMac p serverIp := by
  rw [tryReadAck_nack_iff]
  simp [nackFor_timed]

/-- The client goes back to looking for a server exactly where the answer is a NACK. -/
theorem task_discover_iff (h : Awaits c) (ourMac : Mac) (now : Time) (p : NetworkPacket) :
    (c.task ourMac now (some p)).1.dhcp.state = .discover ↔ ∃ serverIp, NackFor c ourMac p serverIp := by
  rw [← timed_nack_iff now]
  constructor
  · intro hdiscover
    by_contra hnack
    by_cases hack : ((timed c now).tryReadAck ourMac now (some p)).2 = .ack
    · rw [task_bound h hack] at hdiscover
      cases hdiscover
    · have hkept : (c.task ourMac now (some p)).1.dhcp.state = (timed c now).dhcp.state :=
        congrArg Config.state (task_nothing h hack hnack)
      have htimed := timed_state h now
      rw [← hkept, hdiscover] at htimed
      simp at htimed
  · exact task_nack h

/-- An ACK begins a lease or extends it. -/
theorem task_granted (h : Awaits c) {leaseTime : Time} (hack : AckFor c ourMac p leaseTime) :
    (c.task ourMac now (some p)).1.dhcp.state = .bound ∧ (c.task ourMac now (some p)).1.dhcp.time = now ∧
      (c.task ourMac now (some p)).1.dhcp.leaseTime = leaseTime * 1000 := by
  have htimed : AckFor (timed c now) ourMac p leaseTime := (ackFor_timed leaseTime).mpr hack
  have htaken := htimed.taken now
  obtain ⟨q, granted, hhead, hgranted, o, hread⟩ := tryReadAck_ack_iff.mp htaken
  obtain rfl : p = q := Option.some.inj hhead
  obtain rfl : leaseTime = granted := htimed.unique hgranted
  rw [task_awaits h]
  split
  · next hstate =>
    have hsame : timed c now = c := by simp [timed, hstate]
    rw [hsame] at hread
    rw [Client.requesting, hread]
    exact ⟨rfl, rfl, rfl⟩
  · rw [Client.renew, hread]
    exact ⟨rfl, rfl, rfl⟩

/-- Only an answer changes the configuration. -/
theorem task_changes_iff (h : Awaits c) (ourMac : Mac) (now : Time) (p : NetworkPacket) :
    config (c.task ourMac now (some p)).1 ≠ config (timed c now) ↔
      (∃ leaseTime, AckFor c ourMac p leaseTime) ∨ ∃ serverIp, NackFor c ourMac p serverIp := by
  have hstate := timed_state h now
  constructor
  · intro hchange
    by_cases hack : ((timed c now).tryReadAck ourMac now (some p)).2 = .ack
    · obtain ⟨q, leaseTime, hq, hackFor, _⟩ := tryReadAck_ack_iff.mp hack
      obtain rfl : p = q := Option.some.inj hq
      exact .inl ⟨leaseTime, (ackFor_timed leaseTime).mp hackFor⟩
    · by_cases hnack : ((timed c now).tryReadAck ourMac now (some p)).2 = .nack
      · exact .inr ((timed_nack_iff now).mp hnack)
      · exact absurd (task_nothing h hack hnack) hchange
  · rintro hanswer heq
    have hsame : (c.task ourMac now (some p)).1.dhcp.state = (timed c now).dhcp.state := congrArg Config.state heq
    rcases hanswer with ⟨leaseTime, hack⟩ | hnack
    · have hbound : (c.task ourMac now (some p)).1.dhcp.state = .bound := (task_granted h hack).1
      rw [← hsame, hbound] at hstate
      simp at hstate
    · have hdiscover := (task_discover_iff h ourMac now p).mpr hnack
      rw [← hsame, hdiscover] at hstate
      simp at hstate

/-- The lease runs from now on for the time that has been granted, and is otherwise what it was. -/
structure Extended (now leaseTime : Time) (c t : Client) : Prop where
  state : t.dhcp.state = .bound
  time : t.dhcp.time = now
  leaseTime : t.dhcp.leaseTime = leaseTime * 1000
  leasedIp : t.dhcp.leasedIp = c.dhcp.leasedIp
  serverIp : t.dhcp.serverIp = c.dhcp.serverIp
  ourIp : t.ourIp = c.ourIp
  ourNetmask : t.ourNetmask = c.ourNetmask

/-- An ACK extends the lease, also where the timer has run out in the same call. -/
theorem task_renewed (hstate : c.dhcp.state = .renewing) {leaseTime : Time} (hack : AckFor c ourMac p leaseTime) :
    Extended now leaseTime c (c.task ourMac now (some p)).1 := by
  have htimed : AckFor (timed c now) ourMac p leaseTime := (ackFor_timed leaseTime).mpr hack
  have htaken := htimed.taken now
  obtain ⟨q, granted, hhead, hgranted, o, hread⟩ := tryReadAck_ack_iff.mp htaken
  obtain rfl : p = q := Option.some.inj hhead
  obtain rfl : leaseTime = granted := htimed.unique hgranted
  obtain ⟨state, hkept⟩ := timed_dhcp c now
  have hnot : c.dhcp.state ≠ .requesting := by simp [hstate]
  rw [task_awaits (.inr hstate), if_neg hnot, Client.renew, hread, if_pos rfl, hkept]
  exact ⟨rfl, rfl, rfl, rfl, rfl, rfl, rfl⟩

end MiniIp.Invariant
