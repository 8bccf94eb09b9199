import Mathlib.Data.Nat.Notation
import Mathlib.Tactic.SplitIfs

/-!
# The bytes that a stream socket transfers

`AsyncOperation` (`socket/async_operation.hpp`) for the exhaustive receives and sends of
`BasicStreamSocket`, and `SendAll()` (`sys/syscall.hpp`) below `SendSync()`, with the bytes that the
system calls transfer. What a system call returns is an argument.

`SendAll()` passes the full size of the buffer to each `send()`, also after a part of the buffer is
sent, and returns when exactly that size is sent. After a short `send()` it therefore reads past the
buffer; the bytes that it finds there are an argument too.

## Main results

- `send_all_iff`: `SendAll()` sends the buffer, and nothing else, unless `send()` accepts a part of
  it.
-/

namespace Asrt.Socket.ByteStream

/-- The error codes that the operations of a stream socket complete with. -/
inductive SockErrorCode
  | system (errno : ℕ)
  | endOfFile
  | socketNotConnected
  | sendOperationOngoing
  | asyncOperationInProgress
  | connectionAuthenticationFailed
deriving DecidableEq, Repr

/-- `EAGAIN` -/
def EAGAIN : ℕ := 11

/-- `ENOTCONN` -/
def ENOTCONN : ℕ := 107

/-- `ErrorCode_Ns::IsUnconnected()` -/
def SockErrorCode.isUnconnected (ec : SockErrorCode) : Bool :=
  ec = .system ENOTCONN || ec = .socketNotConnected

/-! ## Receiving -/

/-- What `recv()` returns: some bytes, none at the end of the stream, `EAGAIN`, or another error. -/
inductive RecvResult
  | bytes (data : List UInt8)
  | busy
  | error (errno : ℕ)
deriving DecidableEq, Repr

/-- The bytes that `recv()` has taken from the stream. -/
def RecvResult.data : RecvResult → List UInt8
  | bytes data => data
  | busy | error _ => []

/-- `recv_operation_` from its start until its completion handler has been called. -/
inductive ReceiveOperation
  /-- It waits for the rest of `size` bytes. -/
  | ongoing (size : ℕ) (filled : List UInt8)
  /-- The completion handler is to be called with the result. -/
  | completed (result : Except SockErrorCode (List UInt8))
deriving Repr

namespace ReceiveOperation

/-- `ReceiveAsync()` with a buffer of some size. A receive of nothing completes at once. -/
def receiveAsync (size : ℕ) : ReceiveOperation :=
  if size = 0 then .completed (.ok []) else .ongoing size []

/-- How many bytes of the buffer are filled. -/
def filledLength : ReceiveOperation → ℕ
  | ongoing _ filled => filled.length
  | completed _ => 0

/-- `recv()` returns no more than it is asked for. -/
def Receives (op : ReceiveOperation) (result : RecvResult) : Prop :=
  match op with
  | ongoing size filled => result.data.length ≤ size - filled.length
  | completed _ => False

instance (result : RecvResult) : (op : ReceiveOperation) → Decidable (op.Receives result)
  | ongoing _ _ => inferInstanceAs (Decidable (_ ≤ _))
  | completed _ => inferInstanceAs (Decidable False)

/-- `DoPerform()`, for the result of its `recv()`. -/
def perform : ReceiveOperation → RecvResult → ReceiveOperation
  | completed result, _ => completed result
  | ongoing size filled, .busy => ongoing size filled
  | ongoing _ _, .error errno => completed (.error (.system errno))
  | ongoing size filled, .bytes data =>
    if data.length = size - filled.length then completed (.ok (filled ++ data))
    -- the peer has closed the connection
    else if data.length = 0 then completed (.error .endOfFile)
    else ongoing size (filled ++ data)

/-- What an operation that asks for `size` bytes has done: it waits for more, it has all of them, or
it has failed, whatever it had received before. -/
inductive Progress (size : ℕ) (received : List UInt8) : ReceiveOperation → Prop
  | ongoing : received.length < size → Progress size received (.ongoing size received)
  | completed : received.length = size → Progress size received (.completed (.ok received))
  | failed (ec : SockErrorCode) : Progress size received (.completed (.error ec))

theorem progress_receiveAsync {size : ℕ} (hsize : 0 < size) :
    Progress size [] (receiveAsync size) := by
  rw [receiveAsync, if_neg (Nat.ne_of_gt hsize)]
  exact .ongoing hsize

/-- The operation puts together what the calls of `recv()` return. -/
theorem Progress.perform {size : ℕ} {received : List UInt8} {op : ReceiveOperation}
    {result : RecvResult} (h : Progress size received op) (hresult : op.Receives result) :
    Progress size (received ++ result.data) (op.perform result) := by
  cases h with
  | completed | failed => exact hresult.elim
  | ongoing hlt =>
    -- the kernel does not write behind the end of the buffer
    have hle : result.data.length ≤ size - received.length := hresult
    cases result with
    | busy =>
      rw [RecvResult.data, List.append_nil]
      exact .ongoing hlt
    | error errno => exact .failed _
    | bytes data =>
      simp only [RecvResult.data] at hle ⊢
      rw [ReceiveOperation.perform]
      split_ifs with hfull hnone
      · refine .completed ?_
        rw [List.length_append]
        omega
      · exact .failed _
      · refine .ongoing ?_
        rw [List.length_append]
        omega

end ReceiveOperation

/-! ## Sending -/

/-- What `send()` returns: a number of bytes, `EAGAIN`, or another error. -/
inductive SendResult
  | bytes (count : ℕ)
  | busy
  | error (errno : ℕ)
deriving DecidableEq, Repr

/-- The result is an error other than `EAGAIN`. -/
def SendResult.isError : SendResult → Bool
  | bytes _ | busy => false
  | error _ => true

/-- What `send()` may return for a buffer of some size when the kernel has room for at least so many
bytes: a buffer that fits is taken as a whole. -/
def SendResult.Allowed (room size : ℕ) : SendResult → Prop
  | bytes count => count ≤ size ∧ (size ≤ room → count = size)
  | busy => room < size
  | error _ => True

instance (room size : ℕ) : (result : SendResult) → Decidable (result.Allowed room size)
  | .bytes _ => inferInstanceAs (Decidable (_ ∧ _))
  | .busy => inferInstanceAs (Decidable (_ < _))
  | .error _ => inferInstanceAs (Decidable True)

/-- What happens to one call of `SendAll()`: the results of its calls of `send()` so far, and the
memory behind the buffer, by its distance from the buffer's start. -/
structure Transmission where
  results : List SendResult
  beyond : ℕ → UInt8 := fun _ => 0

/-- The first `send()` finds some room in the kernel; nothing is known of the room for the
others. -/
def Transmission.Allowed (room size : ℕ) (t : Transmission) : Prop :=
  (∀ result ∈ t.results.head?, result.Allowed room size) ∧
    ∀ result ∈ t.results.tail, result.Allowed 0 size

instance (room size : ℕ) (t : Transmission) : Decidable (t.Allowed room size) :=
  inferInstanceAs (Decidable (_ ∧ _))

/-- `count` bytes of memory from an offset of the buffer on. -/
def readMemory (buf : List UInt8) (beyond : ℕ → UInt8) (offset count : ℕ) : List UInt8 :=
  (List.range count).map fun i => buf.getD (offset + i) (beyond (offset + i))

/-- The loop of `SendAll()`, after `sentBytes` bytes: what the kernel has taken, and the result if
the loop has ended. -/
def sendAllLoop (buf : List UInt8) (beyond : ℕ → UInt8) (sentBytes : ℕ) :
    List SendResult → List UInt8 × Option (Except SockErrorCode Unit)
  | [] => ([], none)
  | .busy :: _ => ([], some (.error (.system EAGAIN)))
  | .error errno :: _ => ([], some (.error (.system errno)))
  | .bytes count :: results =>
    let taken := readMemory buf beyond sentBytes count
    if sentBytes + count = buf.length then (taken, some (.ok ()))
    else
      -- the next call asks for `buf.length` bytes again, from the new start on
      let rest := sendAllLoop buf beyond (sentBytes + count) results
      (taken ++ rest.1, rest.2)

/-- `SendAll()` -/
def sendAll (buf : List UInt8) (t : Transmission) :
    List UInt8 × Option (Except SockErrorCode Unit) :=
  sendAllLoop buf t.beyond 0 t.results

theorem readMemory_all (buf : List UInt8) (beyond : ℕ → UInt8) :
    readMemory buf beyond 0 buf.length = buf := by
  apply List.ext_getElem
  · simp [readMemory]
  · intro i hi hi'
    simp [readMemory, hi']

/-- A buffer that the first `send()` takes as a whole is sent. -/
theorem sendAll_whole (buf : List UInt8) (results : List SendResult) (beyond : ℕ → UInt8) :
    sendAll buf { results := .bytes buf.length :: results, beyond } = (buf, some (.ok ())) := by
  simp [sendAll, sendAllLoop, readMemory_all]

/-- The first `send()` has returned, without an error. -/
def Transmission.Succeeds (t : Transmission) : Prop :=
  ∃ result ∈ t.results.head?, ∀ errno, result ≠ .error errno

/-- When there is room for the buffer, it is sent as a whole if the first `send()` succeeds, and
nothing of it otherwise. -/
theorem sendAll_of_fits {buf : List UInt8} {room : ℕ} {t : Transmission}
    (ht : t.Allowed room buf.length) (hfits : buf.length ≤ room) :
    (t.Succeeds ∧ sendAll buf t = (buf, some (.ok ()))) ∨
      (¬ t.Succeeds ∧ (sendAll buf t = ([], none) ∨
        ∃ errno, sendAll buf t = ([], some (.error (.system errno))))) := by
  obtain ⟨results, beyond⟩ := t
  cases results with
  | nil =>
    refine .inr ⟨?_, .inl rfl⟩
    rintro ⟨result, hresult, -⟩
    cases hresult
  | cons result results =>
    have hfirst : result.Allowed room buf.length := ht.1 result rfl
    cases result with
    -- a buffer that fits does not block
    | busy => exact absurd hfits (Nat.not_le_of_lt hfirst)
    | error errno =>
      refine .inr ⟨?_, .inr ⟨errno, rfl⟩⟩
      rintro ⟨result, hresult, herror⟩
      exact herror errno (Option.some.inj hresult).symm
    | bytes count =>
      obtain rfl : count = buf.length := hfirst.2 hfits
      refine .inl ⟨⟨_, rfl, ?_⟩, sendAll_whole buf results beyond⟩
      intro errno h
      cases h

/-! ## When `SendAll()` sends the buffer -/

/-- The ranges of memory that the loop of `SendAll()` passes to `send()`, by their offset from the
start of the buffer and their length. The result of the last call may be outstanding. -/
def sendAllRanges (buf : List UInt8) (sentBytes : ℕ) : List SendResult → List (ℕ × ℕ)
  | [] | .busy :: _ | .error _ :: _ => [(sentBytes, buf.length)]
  | .bytes count :: results =>
    (sentBytes, buf.length) ::
      if sentBytes + count = buf.length then [] else sendAllRanges buf (sentBytes + count) results

/-- Every range lies inside the buffer, the kernel takes a prefix of the buffer, and success means
that it has taken all of it. -/
structure Transmits (buf : List UInt8) (t : Transmission) : Prop where
  inside : ∀ range ∈ sendAllRanges buf 0 t.results, range.1 + range.2 ≤ buf.length
  inOrder : (sendAll buf t).1 <+: buf
  complete : (sendAll buf t).2 = some (.ok ()) → (sendAll buf t).1.length = buf.length

/-- The first bytes that the kernel takes, if it takes any before an error, are the whole buffer. -/
def Transmission.TakenWhole (size : ℕ) (t : Transmission) : Prop :=
  ∀ count, t.results.find? (· ≠ .bytes 0) = some (.bytes count) → count = size

/-- A call of `send()` that has taken nothing is repeated. -/
theorem transmits_bytes_zero {buf : List UInt8} (hbuf : buf ≠ []) {results : List SendResult}
    {beyond : ℕ → UInt8} :
    Transmits buf { results := .bytes 0 :: results, beyond } ↔
      Transmits buf { results, beyond } := by
  have hlen : ¬ 0 + 0 = buf.length := by
    have := List.length_pos_iff.mpr hbuf
    omega
  have hsend : sendAll buf { results := .bytes 0 :: results, beyond } =
      sendAll buf { results, beyond } := by
    simp only [sendAll, sendAllLoop, if_neg hlen, readMemory, List.range_zero, List.map_nil,
      List.nil_append, Nat.add_zero]
  -- the call is repeated with the same range
  have hranges : sendAllRanges buf 0 (.bytes 0 :: results) =
      (0, buf.length) :: sendAllRanges buf 0 results := by
    rw [sendAllRanges, if_neg hlen]
  constructor
  · rintro ⟨hinside, hinOrder, hcomplete⟩
    rw [hsend] at hinOrder hcomplete
    refine ⟨fun range hrange => hinside range ?_, hinOrder, hcomplete⟩
    simp only [hranges]
    exact List.mem_cons_of_mem _ hrange
  · rintro ⟨hinside, hinOrder, hcomplete⟩
    refine ⟨?_, hsend ▸ hinOrder, hsend ▸ hcomplete⟩
    simp only [hranges]
    intro range hrange
    rcases List.mem_cons.mp hrange with rfl | hrange
    · simp
    · exact hinside range hrange

/-- A call of `send()` that has taken a part of the buffer is followed by one that reads past its
end. -/
theorem not_transmits_of_part {buf : List UInt8} {count : ℕ} (hpos : count ≠ 0)
    (hpart : count ≠ buf.length) (results : List SendResult) (beyond : ℕ → UInt8) :
    ¬ Transmits buf { results := .bytes count :: results, beyond } := by
  intro h
  have hnext : (count, buf.length) ∈ sendAllRanges buf 0 (.bytes count :: results) := by
    rw [sendAllRanges, Nat.zero_add, if_neg hpart]
    refine List.mem_cons_of_mem _ ?_
    cases results with
    | nil => simp [sendAllRanges]
    | cons result results => cases result <;> simp [sendAllRanges]
  have hinside := h.inside _ hnext
  dsimp only at hinside
  omega

/-- For every buffer and all results of `send()`, `SendAll()` sends the buffer once, from inside the
buffer, exactly if the first bytes that the kernel takes are all of it. -/
theorem send_all_iff {buf : List UInt8} {t : Transmission}
    (ht : ∀ count, .bytes count ∈ t.results → count ≤ buf.length) :
    Transmits buf t ↔ t.TakenWhole buf.length := by
  obtain ⟨results, beyond⟩ := t
  induction results with
  | nil =>
    refine iff_of_true ⟨?_, List.nil_prefix, nofun⟩ nofun
    simp [sendAllRanges]
  | cons result results ih =>
    cases result with
    | busy =>
      refine iff_of_true ⟨?_, List.nil_prefix, nofun⟩ (by simp [Transmission.TakenWhole])
      simp [sendAllRanges]
    | error errno =>
      refine iff_of_true ⟨?_, List.nil_prefix, nofun⟩ (by simp [Transmission.TakenWhole])
      simp [sendAllRanges]
    | bytes count =>
      by_cases hwhole : count = buf.length
      · subst hwhole
        have hsend := sendAll_whole buf results beyond
        refine iff_of_true ⟨?_, ?_, ?_⟩ ?_
        · simp [sendAllRanges]
        · exact ⟨[], by rw [hsend, List.append_nil]⟩
        · intro _
          rw [hsend]
        · intro count hfirst
          simp only [List.find?_cons] at hfirst
          split at hfirst
          · simpa using hfirst.symm
          · -- an empty buffer is sent with the first call, and no call takes any bytes
            rename_i hzero
            have hempty : buf.length = 0 := by simpa using hzero
            have hmem := List.mem_of_find?_eq_some hfirst
            have hle := ht count (List.mem_cons_of_mem _ hmem)
            omega
      · by_cases hzero : count = 0
        · subst hzero
          have hbuf : buf ≠ [] := by
            rintro rfl
            exact hwhole rfl
          rw [transmits_bytes_zero hbuf,
            ih fun count hcount => ht count (List.mem_cons_of_mem _ hcount)]
          simp [Transmission.TakenWhole]
        · refine iff_of_false (not_transmits_of_part hzero hwhole results beyond) fun htaken => ?_
          exact hwhole (htaken count (by simp [hzero]))

/-- Three bytes are sent with the second call of `send()`, after a first one that takes nothing. -/
theorem send_all_second_call :
    sendAll [1, 2, 3] { results := [.bytes 0, .bytes 3] } = ([1, 2, 3], some (.ok ())) ∧
      Transmits [1, 2, 3] { results := [.bytes 0, .bytes 3] } := by
  refine ⟨rfl, (send_all_iff ?_).mpr ?_⟩
  · simp
  · simp [Transmission.TakenWhole]

/-- The kernel takes one of two bytes, and then two more: it has read one byte past the buffer, and
`SendAll()` goes on. -/
theorem send_all_part :
    sendAll [1, 2] { results := [.bytes 1, .bytes 2], beyond := fun _ => 9 } = ([1, 2, 9], none) ∧
      ¬ Transmits [1, 2] { results := [.bytes 1, .bytes 2], beyond := fun _ => 9 } :=
  ⟨rfl, not_transmits_of_part (by decide) (by decide) _ _⟩

/-! ## The sending side of the socket -/

/-- `BasicStreamSocket`, as far as it sends. -/
structure Outgoing where
  /-- `stream_sock_state_` is `kConnected`. -/
  isConnected : Bool := true
  /-- What is left to send for `send_operation_` while it is ongoing. -/
  sendOperation : Option (List UInt8) := none
  /-- The bytes that the kernel has taken. -/
  written : List UInt8 := []
deriving DecidableEq, Repr

namespace Outgoing

/-- `CheckSendPossible()` -/
def checkSendPossible (o : Outgoing) : Except SockErrorCode Unit :=
  if !o.isConnected then .error .socketNotConnected
  else if o.sendOperation.isSome then .error .sendOperationOngoing
  else .ok ()

/-- `SendSync()`. There is no result as long as `SendAll()` has not returned. -/
def sendSync (o : Outgoing) (buf : List UInt8) (t : Transmission) :
    Outgoing × Option (Except SockErrorCode Unit) :=
  match o.checkSendPossible with
  | .error ec => (o, some (.error ec))
  | .ok _ =>
    let (taken, result) := sendAll buf t
    let unconnected := match result with
      | some (.error ec) => decide (ec = .system ENOTCONN)
      | some (.ok _) | none => false
    ({ o with written := o.written ++ taken, isConnected := !unconnected }, result)

/-- `DoPerform()` of `send_operation_`, for the result of its `send()`. There is a result when the
operation is complete. -/
def performSend (o : Outgoing) (buf : List UInt8) :
    SendResult → Outgoing × Option (Except SockErrorCode Unit)
  | .busy => ({ o with sendOperation := some buf }, none)
  | .error errno => ({ o with sendOperation := none }, some (.error (.system errno)))
  | .bytes count =>
    let o := { o with written := o.written ++ buf.take count }
    if count = buf.length then ({ o with sendOperation := none }, some (.ok ()))
    else ({ o with sendOperation := some (buf.drop count) }, none)

/-- `SendAsync()` -/
def sendAsync (o : Outgoing) (buf : List UInt8) (result : SendResult) :
    Outgoing × Option (Except SockErrorCode Unit) :=
  if o.sendOperation.isSome then (o, some (.error .asyncOperationInProgress))
  else o.performSend buf result

/-- `Close()`: the operations are left as they are. -/
def close (o : Outgoing) : Outgoing := { o with isConnected := false }

/-- `SendSync()` of what fits into the kernel's buffer, on a socket that can send: the buffer is
written as a whole, or nothing of it is. -/
theorem sendSync_of_fits {o : Outgoing} {buf : List UInt8} {room : ℕ} {t : Transmission}
    (hconnected : o.isConnected = true) (hidle : o.sendOperation = none)
    (ht : t.Allowed room buf.length) (hfits : buf.length ≤ room) :
    ∃ o' result, o.sendSync buf t = (o', result) ∧ o'.sendOperation = none ∧
      ((t.Succeeds ∧ result = some (.ok ()) ∧ o'.written = o.written ++ buf) ∨
        (¬ t.Succeeds ∧ result ≠ some (.ok ()) ∧ o'.written = o.written)) := by
  have hcheck : o.checkSendPossible = .ok () := by simp [checkSendPossible, hconnected, hidle]
  refine ⟨_, _, rfl, ?_, ?_⟩
  · simp only [hcheck]
    exact hidle
  · simp only [hcheck]
    rcases sendAll_of_fits ht hfits with ⟨hsucceeds, hall⟩ | ⟨hfails, hall | ⟨errno, hall⟩⟩
    · exact .inl ⟨hsucceeds, by rw [hall], by rw [hall]⟩
    · refine .inr ⟨hfails, by simp [hall], ?_⟩
      rw [hall, List.append_nil]
    · refine .inr ⟨hfails, by simp [hall], ?_⟩
      rw [hall, List.append_nil]

theorem written_isPrefix_sendSync (o : Outgoing) (buf : List UInt8) (t : Transmission) :
    o.written <+: (o.sendSync buf t).1.written := by
  rw [sendSync]
  split
  · exact List.prefix_refl _
  · exact List.prefix_append _ _

theorem written_isPrefix_performSend (o : Outgoing) (buf : List UInt8) (result : SendResult) :
    o.written <+: (o.performSend buf result).1.written := by
  cases result with
  | busy | error => exact List.prefix_refl _
  | bytes count =>
    rw [performSend]
    split
    · exact List.prefix_append _ _
    · exact List.prefix_append _ _

/-- Unless there is an error, `send()` takes the whole buffer or a part of it. -/
theorem performSend_of_not_isError (o : Outgoing) (buf : List UInt8) {result : SendResult}
    (h : result.isError = false) :
    o.performSend buf result =
        ({ o with sendOperation := none, written := o.written ++ buf }, some (.ok ())) ∨
      ∃ taken rest, buf = taken ++ rest ∧ o.performSend buf result =
        ({ o with sendOperation := some rest, written := o.written ++ taken }, none) := by
  cases result with
  | error => cases h
  | busy =>
    -- nothing was taken
    refine .inr ⟨[], buf, rfl, ?_⟩
    rw [performSend, List.append_nil]
  | bytes count =>
    rw [performSend]
    by_cases hcount : count = buf.length
    · rw [if_pos hcount, hcount, List.take_length]
      exact .inl rfl
    · rw [if_neg hcount]
      exact .inr ⟨buf.take count, buf.drop count, (List.take_append_drop count buf).symm, rfl⟩

theorem written_isPrefix_sendAsync (o : Outgoing) (buf : List UInt8) (result : SendResult) :
    o.written <+: (o.sendAsync buf result).1.written := by
  rw [sendAsync]
  split
  · exact List.prefix_refl _
  · exact written_isPrefix_performSend o buf result

end Outgoing

end Asrt.Socket.ByteStream
