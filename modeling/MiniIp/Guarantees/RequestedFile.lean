import MiniIp.Invariant.SentDatagrams

/-!
# The file that is asked for

`tftp_download_file` (tftp.c:62-68) copies the name up to its terminator and not
the terminator itself. The string that `send_tftp_request` reads therefore goes
on with what the array held behind the new name:

* the array after the copy is the name and the rest of the old array
  (`copyFilename_toList`);
* the string in it is the name and the string that was behind it
  (`downloaded_filename`);
* the request is the right one exactly where that string is empty
  (`requested_file_iff`).
-/

set_option autoImplicit false

namespace MiniIp.Guarantees.RequestedFile

open MiniIp.Source MiniIp.Invariant MiniIp.Library.Wp

/-- Opcode 1, the name, "octet", "blksize" and "512", each with a zero behind it. -/
def readRequest (name : List UInt8) : List UInt8 :=
  [0, 1] ++ (name ++ [0]) ++ ([111, 99, 116, 101, 116] ++ [0]) ++ ([98, 108, 107, 115, 105, 122, 101] ++ [0]) ++
    ([53, 49, 50] ++ [0])

/-- From `t` to `u` the connection has sent one datagram, the request for the name, and the string it has read ends at a
zero inside the array. -/
structure Requested (name : List UInt8) (connection : TftpConnection) (t u : Stack) : Prop where
  sent : sentDatagrams u.trace =
    ⟨connection.clientPort, connection.serverPort, connection.serverIp, readRequest name⟩ :: sentDatagrams t.trace
  inside : (filenameString connection).length < 64

variable {name rest : List UInt8} {old : Vector UInt8 64} {connection c : TftpConnection} {serverIp : Ip}
  {s s' t u : Stack}

theorem cString_append (h : 0 ∉ name) : cString (name ++ rest) = name ++ cString rest := by
  apply List.takeWhile_append_of_pos
  intro a ha
  have hne : a ≠ 0 := fun hzero => h (hzero ▸ ha)
  exact decide_eq_true hne

theorem cString_terminated (h : 0 ∉ name) : cString (name ++ 0 :: rest) = name := by
  have hstop : cString (0 :: rest) = [] := rfl
  rw [cString_append h, hstop, List.append_nil]

theorem copyFilename_getElem (hname : 0 ∉ name) {i : ℕ} (hi : i < 64) :
    (copyFilename (name ++ 0 :: rest) old)[i] = (name[i]?).getD old[i] := by
  simp [copyFilename, cString_terminated hname]

theorem copyFilename_toList (hname : 0 ∉ name) (hlength : name.length < 64) :
    (copyFilename (name ++ 0 :: rest) old).toList = name ++ old.toList.drop name.length := by
  apply List.ext_getElem
  · simp
    omega
  · intro i hi _
    rw [Vector.length_toList] at hi
    rw [Vector.getElem_toList, copyFilename_getElem hname hi]
    rcases Nat.lt_or_ge i name.length with hlt | hge
    · rw [List.getElem_append_left hlt, List.getElem?_eq_getElem hlt]
      rfl
    · have hindex : name.length + (i - name.length) = i := by omega
      rw [List.getElem_append_right hge, List.getElem?_eq_none hge, List.getElem_drop]
      simp [hindex]

/-- What the connection has for a name after the call. -/
theorem downloaded_filename (hname : 0 ∉ name) (hlength : name.length < 64) :
    wp (tftpDownloadFile connection (name ++ 0 :: rest) serverIp)
      (fun c _ => filenameString c = name ++ cString (connection.filename.toList.drop name.length ++ connection.behind))
      (fun _ _ => True) s := by
  unfold tftpDownloadFile
  rw [wp_bind]
  apply wp_next (wp_true _)
  intro _ _ _
  rw [wp_pure, filenameString, copyFilename_toList hname hlength, List.append_assoc, cString_append hname]

/-- The string behind the name is empty exactly where the old array has a zero there. -/
theorem rest_empty_iff (hlength : name.length < 64) (behind : List UInt8) :
    cString (old.toList.drop name.length ++ behind) = [] ↔ old[name.length] = 0 := by
  have hdrop : old.toList.drop name.length = old[name.length] :: old.toList.drop (name.length + 1) := by
    rw [List.drop_eq_getElem_cons (by simpa using hlength)]
    simp
  rw [hdrop, List.cons_append, cString, List.takeWhile_cons]
  by_cases hzero : old[name.length] = 0
  · simp [hzero]
  · simp [hzero]

theorem readRequest_inj {name' : List UInt8} (h : readRequest name = readRequest name') : name = name' := by
  unfold readRequest at h
  simp only [List.append_assoc, List.cons_append, List.nil_append, List.cons.injEq,
    true_and] at h
  exact List.append_cancel_right h

theorem sendTftpRequest_sent (h : sendTftpRequest c t = .ok () u) :
    sentDatagrams u.trace =
      ⟨c.clientPort, c.serverPort, c.serverIp, readRequest (filenameString c)⟩ :: sentDatagrams t.trace := by
  have hsent := wp_ok (sendTftpPacket_sent c c.serverPort (tftpRequestBytes c) t) h
  exact hsent

/-- The request names the file asked for, and the string read stays inside the array, exactly where the old array has
a zero at the index behind the new name. The request stops where a TFTP datagram cannot be sent, see
`sendTftpPacket_steadily`. -/
theorem requested_file_iff (hname : 0 ∉ name) (hlength : name.length < 64)
    (hstarted : tftpDownloadFile connection (name ++ 0 :: rest) serverIp s = .ok c s')
    (hsent : sendTftpRequest c t = .ok () u) :
    Requested name c t u ↔ connection.filename[name.length] = 0 := by
  have hstring := wp_ok (downloaded_filename hname hlength) hstarted
  have hrequest := sendTftpRequest_sent hsent
  rw [← rest_empty_iff hlength connection.behind]
  constructor
  · intro h
    have hsame := h.sent
    rw [hrequest, List.cons.injEq, Datagram.mk.injEq] at hsame
    have hequal := readRequest_inj hsame.1.2.2.2
    rw [hstring] at hequal
    exact List.append_right_eq_self.mp hequal
  · intro hempty
    rw [hempty, List.append_nil] at hstring
    exact ⟨hstring ▸ hrequest, hstring ▸ hlength⟩

/-- What `send_tftp_request` sends right after `tftp_download_file`. -/
def requestAfter (connection : TftpConnection) (filename : List UInt8) : Option (List UInt8) :=
  match tftpDownloadFile connection filename 0x0A000002 (booted zeroApplication 0 fun _ => 0) with
  | .ok c t =>
    match sendTftpRequest c t with
    | .ok _ u => (sentDatagrams u.trace).head?.map Datagram.payload
    | .error _ _ => none
  | .error _ _ => none

theorem requestAfter_some {filename bytes : List UInt8} (h : requestAfter connection filename = some bytes) :
    ∃ c t u, tftpDownloadFile connection filename 0x0A000002 (booted zeroApplication 0 fun _ => 0) = .ok c t ∧
      sendTftpRequest c t = .ok () u ∧ (sentDatagrams u.trace).head?.map Datagram.payload = some bytes := by
  unfold requestAfter at h
  split at h
  · next c t hstarted =>
    split at h
    · next u hsent => exact ⟨c, t, u, hstarted, hsent, h⟩
    · cases h
  · cases h

/-- A connection whose earlier download asked for "ab". -/
def reusedConnection : TftpConnection :=
  { zeroApplication.connection with filename := copyFilename [97, 98, 0] zeroApplication.connection.filename }

/-- The second download asks for "c", and the request is for "cb". -/
theorem wrong_file_requested :
    ∃ c t u, tftpDownloadFile reusedConnection [99, 0] 0x0A000002 (booted zeroApplication 0 fun _ => 0) = .ok c t ∧
      sendTftpRequest c t = .ok () u ∧
      (sentDatagrams u.trace).head?.map Datagram.payload = some (readRequest [99, 98]) ∧ ¬ Requested [99] c t u := by
  have hrun : requestAfter reusedConnection [99, 0] = some (readRequest [99, 98]) := by decide +kernel
  obtain ⟨c, t, u, hstarted, hsent, hpayload⟩ := requestAfter_some hrun
  refine ⟨c, t, u, hstarted, hsent, hpayload, fun h => ?_⟩
  rw [h.sent] at hpayload
  have hsame := readRequest_inj (Option.some.inj hpayload)
  exact absurd hsame (by decide)

/-- A zeroed connection asks for "c". -/
theorem requested_file_fresh :
    ∃ c t u, tftpDownloadFile zeroApplication.connection [99, 0] 0x0A000002 (booted zeroApplication 0 fun _ => 0) =
      .ok c t ∧ sendTftpRequest c t = .ok () u ∧ Requested [99] c t u := by
  have hrun : requestAfter zeroApplication.connection [99, 0] = some (readRequest [99]) := by decide +kernel
  obtain ⟨c, t, u, hstarted, hsent, _⟩ := requestAfter_some hrun
  have hiff : Requested [99] c t u ↔ zeroApplication.connection.filename[1] = 0 :=
    requested_file_iff (by decide) (by decide) hstarted hsent
  exact ⟨c, t, u, hstarted, hsent, hiff.mpr (by decide)⟩

end MiniIp.Guarantees.RequestedFile
