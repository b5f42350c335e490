import MiniIp.Invariant.Checksum
import MiniIp.Invariant.Transcript

/-!
# Comparing an option

`compare_option` (tftp.c:147-158) walks along a string and a piece of a datagram together. It says that they agree
exactly where the whole string and a zero behind it lie in the datagram, and it reads no byte behind that. So the two
calls in `try_read_oack` find the bytes of one OACK and accept no other.
-/

set_option autoImplicit false

namespace MiniIp.Guarantees.OptionComparison

open MiniIp.Source MiniIp.Invariant MiniIp.Library.Runs MiniIp.Library.Wp

/-- What `compare_option` promises of a string and the bytes from `data` to `stop`. It comes to the same result where no
other bytes may be read. -/
structure Recognises (memory : Memory) (data stop : Int) (string : List UInt8) : Prop where
  found : (compareOption memory data stop string).1 = true ↔
    string ++ [0] <+: readBytes memory data (stop - data).toNat
  advanced : (compareOption memory data stop string).1 = true →
    (compareOption memory data stop string).2 = data + (string.length + 1) ∧
      (compareOption memory data stop string).2 ≤ stop
  inside : ∀ permitted : Int → Option UInt8,
    (∀ address, data ≤ address → address < stop → permitted address = some (memory address)) →
      compareOptionWith permitted data stop string = some (compareOption memory data stop string)

/-- Opcode 6, "blksize", 0, "512", 0. -/
def oackBytes : List UInt8 := [0, 6] ++ (blksizeString ++ [0]) ++ (blockSizeString ++ [0])

variable {memory : Memory} {permitted : Int → Option UInt8} {data stop : Int} {string rest : List UInt8} {c : UInt8}

theorem compareOption_nil (memory : Memory) :
    compareOption memory data stop [] = (decide (data ≠ stop ∧ memory data = 0), data + 1) := by
  unfold compareOption compareOptionWith
  rw [compareOptionLoop, pure_bind]
  by_cases hdata : data = stop
  · simp [hdata]
  · simp [hdata]

/-- Two bytes that agree. -/
theorem compareOption_same (memory : Memory) (rest : List UInt8) (hdata : data ≠ stop) :
    (compareOption memory data stop (memory data :: rest)).1 = (compareOption memory (data + 1) stop rest).1 ∧
      ((compareOption memory data stop (memory data :: rest)).1 = true →
        (compareOption memory data stop (memory data :: rest)).2 = (compareOption memory (data + 1) stop rest).2) := by
  unfold compareOption compareOptionWith
  rw [compareOptionLoop, if_neg hdata, pure_bind, if_neg (fun hne => hne rfl)]
  cases (compareOptionLoop (fun address => pure (memory address)) stop rest (data + 1) : Id (Option Int)) with
  | none => exact ⟨rfl, fun h => by cases h⟩
  | some source => exact ⟨rfl, fun _ => rfl⟩

theorem compareOption_other (hdata : data ≠ stop) (hc : c ≠ memory data) :
    compareOption memory data stop (c :: rest) = (false, data) := by
  unfold compareOption compareOptionWith
  rw [compareOptionLoop, if_neg hdata, pure_bind, if_pos hc]
  rfl

theorem compareOption_stop (memory : Memory) (stop : Int) (string : List UInt8) :
    compareOption memory stop stop string = (false, stop + 1) := by
  cases string with
  | nil => simp [compareOption_nil]
  | cons c rest =>
    unfold compareOption compareOptionWith
    rw [compareOptionLoop, if_pos rfl, pure_bind]
    simp

/-- The bytes up to `stop`, where there is one. -/
theorem readBytes_next (h : data < stop) :
    readBytes memory data (stop - data).toNat = memory data :: readBytes memory (data + 1) (stop - (data + 1)).toNat := by
  obtain ⟨size, hsize⟩ : ∃ size, (stop - data).toNat = size + 1 := ⟨(stop - data).toNat - 1, by omega⟩
  have hrest : (stop - (data + 1)).toNat = size := by omega
  rw [hsize, hrest, readBytes]

theorem compareOption_found (memory : Memory) (string : List UInt8) (hdata : data ≤ stop) :
    (compareOption memory data stop string).1 = true ↔
      string ++ [0] <+: readBytes memory data (stop - data).toNat := by
  induction string generalizing data with
  | nil =>
    rcases hdata.eq_or_lt with heq | hlt
    · subst heq
      simp [compareOption_stop, readBytes]
    · rw [readBytes_next hlt, List.nil_append, List.cons_prefix_cons]
      simp [compareOption_nil, hlt.ne, eq_comm]
  | cons c rest ih =>
    rcases hdata.eq_or_lt with heq | hlt
    · subst heq
      simp [compareOption_stop, readBytes]
    · rw [readBytes_next hlt, List.cons_append, List.cons_prefix_cons]
      by_cases hc : c = memory data
      · subst hc
        rw [(compareOption_same memory rest hlt.ne).1, ih (by omega)]
        simp
      · rw [compareOption_other hlt.ne hc]
        simp [hc]

/-- Behind the string and its zero. -/
theorem compareOption_advanced (hdata : data ≤ stop) (hfound : (compareOption memory data stop string).1 = true) :
    (compareOption memory data stop string).2 = data + (string.length + 1) ∧
      (compareOption memory data stop string).2 ≤ stop := by
  have hprefix := (compareOption_found memory string hdata).mp hfound
  have hlength := hprefix.length_le
  rw [List.length_append, List.length_singleton, readBytes_length] at hlength
  have hnext : (compareOption memory data stop string).2 = data + (string.length + 1) := by
    clear hprefix hlength
    induction string generalizing data with
    | nil => simp [compareOption_nil]
    | cons c rest ih =>
      rcases hdata.eq_or_lt with heq | hlt
      · subst heq
        rw [compareOption_stop] at hfound
        cases hfound
      · by_cases hc : c = memory data
        · subst hc
          obtain ⟨hsame, hafter⟩ := compareOption_same memory rest hlt.ne
          rw [hafter hfound, ih (by omega) (hsame ▸ hfound), List.length_cons]
          omega
        · rw [compareOption_other hlt.ne hc] at hfound
          cases hfound
  exact ⟨hnext, by omega⟩

/-- The loop reads the bytes before `stop`, and leaves off at `stop` at the latest. -/
theorem compareOptionLoop_inside (string : List UInt8) (hdata : data ≤ stop)
    (hpermitted : ∀ address, data ≤ address → address < stop → permitted address = some (memory address)) :
    ∃ outcome : Option Int, compareOptionLoop permitted stop string data = some outcome ∧
      Id.run (compareOptionLoop (fun address => pure (memory address)) stop string data) = outcome ∧
        ∀ source, outcome = some source → data ≤ source ∧ source ≤ stop := by
  induction string generalizing data with
  | nil =>
    refine ⟨some data, rfl, rfl, fun source hsource => ?_⟩
    rw [← Option.some.inj hsource]
    exact ⟨le_refl _, hdata⟩
  | cons c rest ih =>
    rcases hdata.eq_or_lt with heq | hlt
    · subst heq
      refine ⟨some data, by simp [compareOptionLoop], by simp [compareOptionLoop], fun source hsource => ?_⟩
      rw [← Option.some.inj hsource]
      exact ⟨le_refl _, le_refl _⟩
    · simp only [compareOptionLoop, if_neg hlt.ne, hpermitted data (le_refl _) hlt, Option.bind_eq_bind, Option.bind_some,
        pure_bind]
      split
      · exact ⟨none, rfl, rfl, fun source hsource => by cases hsource⟩
      · have hnext : data + 1 ≤ stop := by omega
        obtain ⟨outcome, hread, hran, hleft⟩ := ih hnext fun address hfrom hto => hpermitted address (by omega) hto
        refine ⟨outcome, hread, hran, fun source hsource => ?_⟩
        obtain ⟨hfrom, hto⟩ := hleft source hsource
        exact ⟨by omega, hto⟩

theorem compareOptionWith_inside (hdata : data ≤ stop)
    (hpermitted : ∀ address, data ≤ address → address < stop → permitted address = some (memory address)) :
    compareOptionWith permitted data stop string = some (compareOption memory data stop string) := by
  obtain ⟨outcome, hread, hran, hleft⟩ := compareOptionLoop_inside string hdata hpermitted
  simp only [compareOption, compareOptionWith, Id.run_bind, hread, hran, Option.bind_eq_bind, Option.bind_some]
  cases outcome with
  | none => rfl
  | some source =>
    obtain ⟨hfrom, hto⟩ := hleft source rfl
    rcases hto.eq_or_lt with heq | hlt
    · simp [heq]
    · simp [hlt.ne, hpermitted source hfrom hlt]

theorem compareOption_recognises (memory : Memory) (string : List UInt8) (hdata : data ≤ stop) :
    Recognises memory data stop string where
  found := compareOption_found memory string hdata
  advanced := compareOption_advanced hdata
  inside _ := compareOptionWith_inside hdata

theorem readBe16_oack_iff (memory : Memory) (pointer : Int) :
    readBe16 memory pointer = tftpOpcodeOack ↔ memory pointer = 0 ∧ memory (pointer + 1) = 6 := by
  rw [← UInt16.toNat_inj, readBe16, be16_toNat, ← UInt8.toNat_inj, ← UInt8.toNat_inj]
  have hopcode : tftpOpcodeOack.toNat = 6 := rfl
  have hhigh : (0 : UInt8).toNat = 0 := rfl
  have hlow : (6 : UInt8).toNat = 6 := rfl
  rw [hopcode, hhigh, hlow]
  omega

/-- One string and its zero, and what is behind them. -/
theorem prefix_readBytes_iff {size : ℕ} (string rest : List UInt8) :
    string ++ rest <+: readBytes memory data size ↔ string <+: readBytes memory data size ∧
      rest <+: readBytes memory (data + string.length) (size - string.length) := by
  rw [← drop_readBytes]
  constructor
  · rintro ⟨behind, hbytes⟩
    refine ⟨⟨rest ++ behind, by rw [← hbytes, List.append_assoc]⟩, behind, ?_⟩
    rw [← hbytes, List.append_assoc, List.drop_left]
  · rintro ⟨⟨behind, hbytes⟩, further, hrest⟩
    rw [← hbytes, List.drop_left] at hrest
    exact ⟨further, by rw [List.append_assoc, hrest, hbytes]⟩

theorem opcode_prefix_iff {size : ℕ} (hsize : 2 ≤ size) :
    [0, 6] <+: readBytes memory data size ↔ readBe16 memory data = tftpOpcodeOack := by
  obtain ⟨rest, rfl⟩ := Nat.exists_eq_add_of_le' hsize
  rw [readBe16_oack_iff, readBytes, readBytes, List.cons_prefix_cons, List.cons_prefix_cons]
  simp [eq_comm]

/-- The two calls of `compare_option`, the second where the first leaves off. -/
theorem oackStatus_calls (p : NetworkPacket) : oackStatus p = .ok ↔ readBe16 p.data p.index = tftpOpcodeOack ∧
    (compareOption p.data (p.index + 2) (p.index + p.length) blksizeString).1 = true ∧
      (compareOption p.data (compareOption p.data (p.index + 2) (p.index + p.length) blksizeString).2
        (p.index + p.length) blockSizeString).1 = true := by
  unfold oackStatus
  by_cases hopcode : readBe16 p.data p.index = tftpOpcodeOack
  · cases hfirst : (compareOption p.data (p.index + 2) (p.index + p.length) blksizeString).1 with
    | false => simp [hopcode, hfirst]
    | true => simp [hopcode, hfirst]
  · simp [hopcode]

/-- A datagram of at least two bytes passes exactly where its payload begins with the bytes of the OACK. -/
theorem oackStatus_ok_iff {p : NetworkPacket} (hlength : 2 ≤ p.length) :
    oackStatus p = .ok ↔ oackBytes <+: p.payload := by
  have hoptions : p.index + 2 ≤ p.index + p.length := by omega
  have hsize : (p.index + p.length - (p.index + 2)).toNat = p.length.toNat - 2 := by omega
  have hfound := compareOption_found p.data blksizeString hoptions
  rw [hsize] at hfound
  rw [oackStatus_calls, oackBytes, NetworkPacket.payload, List.append_assoc, prefix_readBytes_iff,
    opcode_prefix_iff (by omega), prefix_readBytes_iff, hfound]
  refine and_congr_right fun _ => and_congr_right fun hfirst => ?_
  obtain ⟨hnext, hinside⟩ := compareOption_advanced hoptions (hfound.mpr hfirst)
  have hrest : (p.index + p.length - (p.index + 2 + (blksizeString.length + 1))).toNat =
      p.length.toNat - 2 - (blksizeString.length + 1) := by omega
  rw [hnext] at hinside ⊢
  rw [compareOption_found p.data blockSizeString hinside, hrest]
  rfl

variable {application : Application} {time : Time} {entropy : ℕ → UInt32} {ok : Stack → Op → Prop} {s : Stack}
  {p : NetworkPacket} {connection : TftpConnection}

/-- `compare_option` recognises a terminated string, whatever the bytes, and in every state that is reached
`try_read_oack` accepts the OACK and no other datagram of at least two bytes. -/
theorem option_recognised (memory : Memory) (string : List UInt8) (hdata : data ≤ stop)
    (h : Reaches Op.exec ok (booted application time entropy) s)
    (hhead : headDatagram s connection.clientPort = some p) (hlength : 2 ≤ p.length) :
    Recognises memory data stop string ∧
      wp (tryReadOack connection) (fun out _ => out.1 = .ok ↔ oackBytes <+: p.payload) (fun _ _ => True) s := by
  refine ⟨compareOption_recognises memory string hdata, ?_⟩
  obtain ⟨_, _, hs⟩ := reaches_intact False h fun w => w.elim
  apply wp_next (tryReadOack_reads hs.udp)
  intro out _ hout
  rw [hout, hhead, readOack, if_neg (by omega), ← oackStatus_ok_iff hlength]
  split
  · next hok => exact iff_of_true rfl hok
  · exact Iff.rfl

/-- An OACK waits for the client. -/
theorem option_recognised_oack :
    ∃ s p, Reaches Op.exec (fun _ _ => True) (booted zeroApplication 0 fun _ => 0) s ∧
      headDatagram s s.application.connection.clientPort = some p ∧ oackBytes <+: p.payload ∧
      Recognises p.data (p.index + 2) (p.index + p.length) blksizeString ∧
      wp (tryReadOack s.application.connection) (fun out _ => out.1 = .ok ↔ oackBytes <+: p.payload)
        (fun _ _ => True) s := by
  have hrun : runs Op.exec (fun _ _ => true)
      (fun s => (headDatagram s s.application.connection.clientPort).any fun p =>
        decide (2 ≤ p.length) && oackBytes.isPrefixOf p.payload)
      [.setOurIp 0x0A000001, .setOurNetmask 0xFFFFFFFF, .downloadFile [102, 0] 0x0A000002,
        .deliverUdp 0 2000 tftpClientPort oackBytes, .receive]
      (booted zeroApplication 0 fun _ => 0) = true := by
    decide +kernel
  obtain ⟨s, hreach, hcheck⟩ := reaches_of_runs (fun _ _ => True) .start (fun _ _ _ _ => trivial) hrun
  rw [Option.any_eq_true] at hcheck
  obtain ⟨p, hhead, hp⟩ := hcheck
  rw [Bool.and_eq_true, decide_eq_true_eq, List.isPrefixOf_iff_prefix] at hp
  obtain ⟨hlength, hprefix⟩ := hp
  have hoptions : p.index + 2 ≤ p.index + p.length := by omega
  obtain ⟨hrecognises, haccepts⟩ := option_recognised p.data blksizeString hoptions hreach hhead hlength
  exact ⟨s, p, hreach, hhead, hprefix, hrecognises, haccepts⟩

end MiniIp.Guarantees.OptionComparison
