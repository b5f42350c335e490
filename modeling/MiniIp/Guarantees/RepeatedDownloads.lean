import MiniIp.Invariant.ApplicationFrame
import MiniIp.Invariant.SoundRun
import MiniIp.Library.Runs

/-!
# One download after the other

`tftp_download_file` (tftp.c:51-69) takes a free UDP connection for the client port, and
nothing gives it back. The second download leaves two connections with the same port, and the 16th uses
the node of an empty list.
-/

set_option autoImplicit false

namespace MiniIp.Guarantees.RepeatedDownloads

open MiniIp.Source MiniIp.Invariant MiniIp.Library.Runs MiniIp.Library.Wp

structure Session where
  stack : Stack
  /-- `dhcp_start` has been called. -/
  configured : Bool
  /-- How many downloads have been started. -/
  started : ℕ

inductive Step where
  | configure
  | download (filename : List UInt8) (serverIp : Ip)
  | other (op : Op)

abbrev Net.onSession {α : Type} (x : Net α) : EStateM Halt Session α :=
  onPart Session.stack (fun s a => { a with stack := s }) x

def Step.exec : Step → EStateM Halt Session Unit
  | configure => do
    Net.onSession dhcpStart
    modify fun a => { a with configured := true }
  | download filename serverIp => do
    Net.onSession (downloadFile filename serverIp)
    modify fun a => { a with started := a.started + 1 }
  | other op => Net.onSession op.exec

/-- The calls that open no connection. -/
def Op.Background : Op → Prop
  | .udpListen .. | .dhcpStart | .downloadFile .. => False
  | _ => True

instance : (op : Op) → Decidable (Op.Background op)
  | .udpListen .. | .dhcpStart | .downloadFile .. => inferInstanceAs (Decidable False)
  | .receiveDone .. | .transmitDone _ | .transmitStatus _ | .tick _ | .receive | .arpTask | .sendToIp .. |
    .udpSend .. | .udpReceive .. | .dhcpTask | .dhcpRelease | .readFile _ | .abortDownload _ | .setOurMac _ |
    .setOurIp _ | .setOurNetmask _ => inferInstanceAs (Decidable True)

/-- No download is going on. -/
def Session.Idle (a : Session) : Prop :=
  a.started = 0 ∨ a.stack.application.connection.state = .done ∨
    a.stack.application.connection.state = .error

instance (a : Session) : Decidable a.Idle := inferInstanceAs (Decidable (_ ∨ _ ∨ _))

/-- DHCP is started once, and a download after it when the last one has ended. -/
def Step.Allowed (a : Session) : Step → Prop
  | configure => a.configured = false
  | download .. => a.configured = true ∧ a.Idle
  | other op => Op.Background op

instance (a : Session) : (step : Step) → Decidable (step.Allowed a)
  | .configure => inferInstanceAs (Decidable (_ = _))
  | .download .. => inferInstanceAs (Decidable (_ ∧ _))
  | .other op => inferInstanceAs (Decidable (Op.Background op))

def Session.start (application : Application) (time : Time) (entropy : Nat → UInt32) : Session :=
  ⟨booted application time entropy, false, 0⟩

def Running (a : Session) : Prop :=
  ∃ application time entropy, Reaches Step.exec Step.Allowed (Session.start application time entropy) a

/-- The ports of the connections in use. -/
def usedPorts (u : Udp) : List Port := u.usedConnections.map fun c => (u.connections c).port

/-- The first `n` downloads find a free connection. -/
def FindsConnection (n : ℕ) : Prop :=
  ∀ a, Running a → a.started < n → ∀ filename serverIp, (Step.download filename serverIp).Allowed a →
    wp (downloadFile filename serverIp) (fun _ _ => True) (fun e _ => e ≠ .nullPointer) a.stack

/-- `n` downloads can be performed one after the other. -/
structure Repeatable (n : ℕ) : Prop where
  configures : ∀ a, Running a → a.configured = false →
    wp dhcpStart (fun _ _ => True) (fun e _ => e ≠ .nullPointer) a.stack
  finds : FindsConnection n
  distinct : ∀ a, Running a → a.started ≤ n → (usedPorts a.stack.udp).Nodup

/-- The invariant: what is in use, and that every connection is free or in use. -/
structure Counted (a : Session) : Prop where
  ports : usedPorts a.stack.udp = List.replicate a.started tftpClientPort ++
    if a.configured then [dhcpClientPort] else []
  nodup : (a.stack.udp.freeConnections ++ a.stack.udp.usedConnections).Nodup
  total : a.stack.udp.freeConnections.length + a.stack.udp.usedConnections.length = 16
  first : a.configured = false → a.started = 0

variable {a b : Session} {s t : Stack} {c : UdpConnectionId} {port : Port} {maxPacketCount : Int}

theorem usedPorts_kept (h : listeners t.udp = listeners s.udp) : usedPorts t.udp = usedPorts s.udp := by
  unfold usedPorts
  simp only [listeners_used h, listeners_port h]

theorem Counted.kept (h : Counted a) (hkept : listeners t.udp = listeners a.stack.udp) :
    Counted { a with stack := t } := by
  have hfree : t.udp.freeConnections = a.stack.udp.freeConnections := congrArg (·.1) hkept
  have hused := listeners_used hkept
  constructor
  · rw [usedPorts_kept hkept]
    exact h.ports
  · simp only [hfree, hused]
    exact h.nodup
  · simp only [hfree, hused]
    exact h.total
  · exact h.first

theorem usedPorts_opened (h : Opened s port maxPacketCount c t) (hunused : c ∉ s.udp.usedConnections) :
    usedPorts t.udp = port :: usedPorts s.udp := by
  unfold usedPorts
  rw [h.used, List.map_cons, h.connections, Function.update_self]
  congr 1
  apply List.map_congr_left
  intro c' hc'
  have hne : c' ≠ c := by
    rintro rfl
    exact hunused hc'
  rw [Function.update_of_ne hne]

/-- A connection has moved from the free ones to those in use. -/
theorem Counted.opened (h : Counted a) (ht : Opened a.stack port maxPacketCount c t) :
    usedPorts t.udp = port :: usedPorts a.stack.udp ∧
      (t.udp.freeConnections ++ t.udp.usedConnections).Nodup ∧
      t.udp.freeConnections.length + t.udp.usedConnections.length = 16 := by
  have hnodup := h.nodup
  have htotal := h.total
  have hunused := ht.unused hnodup
  rw [ht.free] at hnodup htotal
  constructor
  · exact usedPorts_opened ht hunused
  constructor
  · rw [ht.used]
    exact List.perm_middle.nodup_iff.mpr hnodup
  · rw [ht.used]
    simp only [List.length_cons] at htotal ⊢
    omega

theorem Op.Background.closed {op : Op} (h : Op.Background op) : ¬ Op.OpensConnection op := by
  intro hopens
  cases op with
  | udpListen port maxPacketCount => exact h
  | dhcpStart => exact h
  | _ => exact hopens

theorem background_listeners {op : Op} (h : Op.Background op) :
    wp op.exec (fun _ t => listeners t.udp = listeners s.udp) (fun _ _ => True) s := by
  by_cases hwrites : Op.WritesApplication op
  · cases op with
    | readFile size =>
      simp only [Op.exec, readFile, wp_bind, wp_get, wp_modify]
      exact wp_partial ((tftpRead_spares _ _ : Spares False _) _) fun _ t ht => ht.listeners
    | downloadFile filename serverIp => exact h.elim
    | _ => exact hwrites.elim
  · have hkeeps : KeepsApplication True op.exec :=
      exec_keepsApplication hwrites fun hopens => absurd hopens (Op.Background.closed h)
    exact wp_partial (hkeeps s) fun _ t ht => ht.listeners trivial

/-- `tftp_download_file` opens a connection for the client port. -/
theorem downloadFile_opened (filename : List UInt8) (serverIp : Ip) :
    wp (downloadFile filename serverIp)
      (fun _ t => ∃ c u, Opened s tftpClientPort 1 c u ∧ t.udp = u.udp)
      (fun e _ => e = .nullPointer ∧ s.udp.freeConnections = []) s := by
  unfold downloadFile tftpDownloadFile
  simp only [wp_bind, wp_get, wp_modify, wp_pure]
  apply wp_next (udpListen_opened tftpClientPort 1)
  intro _ u hu
  obtain ⟨c, hopened⟩ := hu
  exact ⟨c, u, hopened, rfl⟩

/-- `dhcp_start` opens one for its own port. -/
theorem dhcpStart_opened :
    wp dhcpStart (fun _ t => ∃ c u, Opened u dhcpClientPort 1 c t ∧ u.udp = s.udp)
      (fun e _ => e = .nullPointer ∧ s.udp.freeConnections = []) s := by
  unfold dhcpStart setDhcpState
  simp only [wp_bind, wp_modifyDhcp, wp_emit, wp_random, wp_getTime]
  apply wp_mono (udpListen_opened dhcpClientPort 1)
  · intro _ t ht
    obtain ⟨c, hopened⟩ := ht
    exact ⟨c, _, hopened, rfl⟩
  · intro e _ he
    exact he

theorem exec_counted {step : Step} (h : Counted a) (hallowed : step.Allowed a) :
    wp step.exec (fun _ b => Counted b) (fun _ _ => True) a := by
  cases step with
  | configure =>
    simp only [Step.exec, wp_bind, wp_onPart, wp_modify]
    apply wp_partial dhcpStart_opened
    intro _ t ht
    obtain ⟨c, u, hopened, hudp⟩ := ht
    have hu : Counted { a with stack := u } := h.kept (by rw [hudp])
    obtain ⟨hports, hnodup, htotal⟩ := hu.opened hopened
    have hbefore : a.configured = false := hallowed
    constructor
    · simp [hports, hudp, h.ports, h.first hbefore, hbefore]
    · exact hnodup
    · exact htotal
    · intro hcontra
      cases hcontra
  | download filename serverIp =>
    simp only [Step.exec, wp_bind, wp_onPart, wp_modify]
    apply wp_partial (downloadFile_opened filename serverIp)
    intro _ t ht
    obtain ⟨c, u, hopened, hudp⟩ := ht
    obtain ⟨hports, hnodup, htotal⟩ := h.opened hopened
    constructor
    · simp only [hudp, hports, h.ports]
      rfl
    · rw [hudp]
      exact hnodup
    · rw [hudp]
      exact htotal
    · intro hcontra
      rw [hallowed.1] at hcontra
      cases hcontra
  | other op =>
    simp only [Step.exec, wp_onPart]
    apply wp_next (background_listeners hallowed)
    intro _ t ht
    exact h.kept ht

theorem start_counted (application : Application) (time : Time) (entropy : Nat → UInt32) :
    Counted (Session.start application time entropy) := by
  obtain ⟨hfree, hused, _⟩ := (booted_fresh : Fresh application time entropy _).udp
  constructor
  · simp [Session.start, usedPorts, hused]
  · simp only [Session.start, hfree, hused]
    decide
  · simp [Session.start, hfree, hused]
  · intro _
    rfl

theorem running_counted (h : Running a) : Counted a := by
  obtain ⟨application, time, entropy, hreach⟩ := h
  apply hreach.invariant
  · exact start_counted application time entropy
  · intro _ step _ ha hallowed
    exact exec_counted ha hallowed

/-- The free connections are those that nothing has been started for. -/
theorem Counted.free_length (h : Counted a) :
    a.stack.udp.freeConnections.length + a.started + (if a.configured then 1 else 0) = 16 := by
  have hports := congrArg List.length h.ports
  have htotal := h.total
  rw [usedPorts, List.length_map, List.length_append, List.length_replicate] at hports
  split at hports
  · next hconfigured =>
    rw [if_pos hconfigured]
    rw [List.length_singleton] at hports
    omega
  · next hnot =>
    rw [if_neg hnot]
    rw [List.length_nil] at hports
    omega

theorem Counted.finds (h : Counted a) (hfew : a.started < 15) (filename : List UInt8) (serverIp : Ip) :
    wp (downloadFile filename serverIp) (fun _ _ => True) (fun e _ => e ≠ .nullPointer) a.stack := by
  apply wp_mono (downloadFile_opened filename serverIp)
  · intro _ _ _
    trivial
  · intro e _ he
    have hlength := h.free_length
    rw [he.2, List.length_nil] at hlength
    split at hlength
    · omega
    · omega

/-- After 15 downloads no connection is left. -/
theorem Counted.stops (h : Counted a) (hstarted : a.started = 15) (hconfigured : a.configured = true)
    (filename : List UInt8) (serverIp : Ip) :
    wp (downloadFile filename serverIp) (fun _ _ => False) (fun e _ => e = .nullPointer) a.stack := by
  have hlength := h.free_length
  rw [if_pos hconfigured] at hlength
  have hnil : a.stack.udp.freeConnections = [] := List.length_eq_zero_iff.mp (by omega)
  apply wp_mono (downloadFile_opened filename serverIp)
  · intro _ t ht
    obtain ⟨c, u, hopened, _⟩ := ht
    have hmem := hopened.mem_free
    rw [hnil] at hmem
    cases hmem
  · intro e _ he
    exact he.1

theorem Counted.configures (h : Counted a) (hconfigured : a.configured = false) :
    wp dhcpStart (fun _ _ => True) (fun e _ => e ≠ .nullPointer) a.stack := by
  apply wp_mono dhcpStart_opened
  · intro _ _ _
    trivial
  · intro e _ he
    have hlength := h.free_length
    rw [he.2, h.first hconfigured, hconfigured] at hlength
    simp at hlength

theorem Counted.distinct (h : Counted a) (hfew : a.started ≤ 1) : (usedPorts a.stack.udp).Nodup := by
  rw [h.ports]
  have hcases : a.started = 0 ∨ a.started = 1 := by omega
  rcases hcases with hzero | hone
  · rw [hzero]
    split
    · decide
    · decide
  · rw [hone]
    split
    · decide
    · decide

theorem Counted.doubled (h : Counted a) (htwo : a.started = 2) : ¬ (usedPorts a.stack.udp).Nodup := by
  rw [h.ports, htwo]
  simp [List.replicate]

/-- A download of one byte, as the `i`-th one: the OACK and the block come through two slots of the ring. -/
def oneByteDownload (i : ℕ) : List Step :=
  [.download [102] 0x0A000002,
    .other (.deliverUdp (Fin.ofNat 32 (2 * i)) 2000 tftpClientPort
      (be16Bytes tftpOpcodeOack ++ stringFollowedByZero blksizeString ++ stringFollowedByZero blockSizeString)),
    .other .receive, .other (.readFile 512),
    .other (.deliverUdp (Fin.ofNat 32 (2 * i + 1)) 2000 tftpClientPort [0, 3, 0, 1, 7]),
    .other .receive, .other (.readFile 512)]

/-- Compute `n` downloads of one byte. -/
def downloads (n : ℕ) : Bool :=
  runs Step.exec (fun a step => decide (step.Allowed a))
    (fun a => a.started = n ∧ a.configured = true ∧ a.stack.application.connection.state = .done)
    (.configure :: (List.range n).flatMap oneByteDownload) (Session.start zeroApplication 0 fun _ => 0)

theorem running_of_downloads {n : ℕ} (h : downloads n = true) :
    ∃ a, Running a ∧ a.started = n ∧ a.configured = true ∧ a.Idle := by
  obtain ⟨a, hreach, hcheck⟩ := reaches_of_runs Step.Allowed .start
    (fun _ _ _ hguard => of_decide_eq_true hguard) h
  obtain ⟨hstarted, hconfigured, hdone⟩ := of_decide_eq_true hcheck
  exact ⟨a, ⟨_, _, _, hreach⟩, hstarted, hconfigured, .inr (.inl hdone)⟩

theorem downloads_two : downloads 2 = true := by decide +kernel

theorem downloads_fifteen : downloads 15 = true := by decide +kernel

/-- One download can be performed, and not two: two connections then have the same port. Up to the 15th one
there is a free connection. -/
theorem repeatable_iff (n : ℕ) : (Repeatable n ↔ n ≤ 1) ∧ (FindsConnection n ↔ n ≤ 15) := by
  constructor
  · constructor
    · intro h
      by_contra hmany
      obtain ⟨a, hrunning, htwo, _⟩ := running_of_downloads downloads_two
      exact (running_counted hrunning).doubled htwo (h.distinct a hrunning (by omega))
    · intro hfew
      constructor
      · intro a hrunning
        exact (running_counted hrunning).configures
      · intro a hrunning hstarted filename serverIp _
        exact (running_counted hrunning).finds (by omega) filename serverIp
      · intro a hrunning hstarted
        exact (running_counted hrunning).distinct (by omega)
  · constructor
    · intro h
      by_contra hmany
      obtain ⟨a, hrunning, hstarted, hconfigured, hidle⟩ := running_of_downloads downloads_fifteen
      have hfound := h a hrunning (by omega) [] 0 ⟨hconfigured, hidle⟩
      have hstops := (running_counted hrunning).stops hstarted hconfigured [] 0
      apply wp_absurd
      apply wp_mono (wp_and hfound hstops)
      · intro _ _ hnever
        exact hnever.2
      · intro e _ hnever
        exact hnever.1 hnever.2
    · intro hfew a hrunning hstarted filename serverIp _
      exact (running_counted hrunning).finds (by omega) filename serverIp

/-- Two downloads of one byte leave two connections with the client port, and after 15 of them
the next one uses the node of an empty list. -/
theorem downloads_use_up_connections :
    (∃ a, Running a ∧ a.started = 2 ∧ ¬ (usedPorts a.stack.udp).Nodup) ∧
      ∃ a, Running a ∧ a.started = 15 ∧ (Step.download [102] 0x0A000002).Allowed a ∧
        wp (downloadFile [102] 0x0A000002) (fun _ _ => False) (fun e _ => e = .nullPointer) a.stack := by
  constructor
  · obtain ⟨a, hrunning, htwo, _⟩ := running_of_downloads downloads_two
    exact ⟨a, hrunning, htwo, (running_counted hrunning).doubled htwo⟩
  · obtain ⟨a, hrunning, hstarted, hconfigured, hidle⟩ := running_of_downloads downloads_fifteen
    exact ⟨a, hrunning, hstarted, ⟨hconfigured, hidle⟩,
      (running_counted hrunning).stops hstarted hconfigured _ _⟩

end MiniIp.Guarantees.RepeatedDownloads
