import Asrt.ClientServer.Message
import Asrt.Socket.ByteStream
import Asrt.ToMathlib.Machine
import Mathlib.Data.List.Induction

/-!
# The reception loop of a connection

`ReceiveMessageHeader()`, `ReceiveMessageBody()` and `FinalizeReception()` of `Connection`
(`client_server/connection.hpp`). The loop asks for the header of a message, reads the length of the
body from it, asks for the body, hands the message over, and starts again with the same
`incoming_message_`.

`ReceiveMessageBody()` passes a view behind the five bytes of `data_`: `recv()` writes the body
behind the end of the vector. From there on nothing is known of the program, and the loop has no
further step.

## Main results

- `InSync.step`: on the bytes of any messages, in whatever pieces they arrive, the loop asks for the
  header and the body of each message and hands over one message for each, in order, with the type
  and the length that the sender has put in, as long as it stays inside of `data_`.
- `framing_in_sync`: it gets through to the end of the messages exactly if none of them has a body.
- `body_inside_iff`: the view for the body lies inside `data_` only if no body is announced.
-/

namespace Asrt.ClientServer

open ToMathlib Socket.ByteStream

/-- A view into `data_`. -/
structure BufferView where
  offset : ℕ
  length : ℕ
deriving DecidableEq, Repr

/-- The view covers bytes of the vector only. -/
def BufferView.Inside (view : BufferView) (data : List UInt8) : Prop :=
  view.offset + view.length ≤ data.length

instance (view : BufferView) (data : List UInt8) : Decidable (view.Inside data) :=
  inferInstanceAs (Decidable (_ ≤ _))

/-- The first `count` bytes of a view behind those that are filled already. -/
def BufferView.next (view : BufferView) (filled count : ℕ) : BufferView :=
  ⟨view.offset + filled, count⟩

namespace GenericMessage2

/-- `BodyView()` -/
def bodyView (m : GenericMessage2) : BufferView := ⟨headerLength, m.payloadLen.toNat⟩

/-- `recv()` writes some bytes to a view; there is no result if they are not all inside of
`data_`. -/
def receiveInto (m : GenericMessage2) (view : BufferView) (bytes : List UInt8) :
    Option GenericMessage2 :=
  if view.Inside m.data then some { m with data := memcpy m.data view.offset bytes } else none

end GenericMessage2

/-- Where the loop is. -/
inductive Phase
  /-- The receive of `ReceiveMessageHeader()`. -/
  | header (operation : ReceiveOperation)
  /-- The receive of `ReceiveMessageBody()`. -/
  | body (operation : ReceiveOperation)
  /-- `FinalizeReception()` has handed the message over. -/
  | finalizing
  /-- `HandleCommunicationError()` was called. -/
  | failed (ec : SockErrorCode)
  /-- `recv()` has written behind the end of `data_`. -/
  | overflowed
deriving Repr

/-- The reception of a connection. -/
structure Reception where
  /-- `incoming_message_` -/
  incomingMessage : GenericMessage2 := {}
  phase : Phase
  /-- The bytes that `recv()` has returned. -/
  received : List UInt8 := []
  /-- The sizes that were passed to `ReceiveAsync()`. -/
  requests : List ℕ := []
  /-- The messages that were enqueued or passed to `OnMessage()`. -/
  delivered : List GenericMessage2 := []
deriving Repr

/-- The steps of the loop. -/
inductive ReceptionStep
  /-- `recv()` returns. -/
  | recv (result : RecvResult)
  /-- The completion handler of the receive is called, up to the end of `OnMessage()`. -/
  | complete
  /-- The rest of `FinalizeReception()`. -/
  | resume
deriving Repr

namespace Reception

/-- `ReceiveMessageHeader()` -/
def receiveMessageHeader (r : Reception) : Reception :=
  { r with
    incomingMessage := r.incomingMessage.resize GenericMessage2.headerLength
    phase := .header (.receiveAsync GenericMessage2.headerLength)
    requests := r.requests ++ [GenericMessage2.headerLength] }

/-- `ReceiveMessageBody()` -/
def receiveMessageBody (r : Reception) : Reception :=
  { r with
    phase := .body (.receiveAsync r.incomingMessage.bodyLength)
    requests := r.requests ++ [r.incomingMessage.bodyLength] }

/-- `FinalizeReception()`, up to the call of the owner. -/
def finalizeReception (r : Reception) : Reception :=
  { r with phase := .finalizing, delivered := r.delivered ++ [r.incomingMessage] }

/-- The completion handler of `ReceiveMessageHeader()`, called with the bytes in `HeaderView()`. -/
def onHeader (order : ByteOrder) (bytes : List UInt8) (r : Reception) : Reception :=
  let r := { r with
    incomingMessage := ({ r.incomingMessage with data := bytes }).commitHeaderUpdate order }
  if r.incomingMessage.hasBody then r.receiveMessageBody else r.finalizeReception

/-- `recv()` returns to the receive of a body: the bytes are written to `BodyView()`, behind those
that were received before. -/
def recvBody (operation : ReceiveOperation) (result : RecvResult) (r : Reception) : Reception :=
  let received := r.received ++ result.data
  let view := r.incomingMessage.bodyView.next operation.filledLength result.data.length
  match r.incomingMessage.receiveInto view result.data with
  | some incomingMessage =>
    { r with incomingMessage, received, phase := .body (operation.perform result) }
  | none => { r with received, phase := .overflowed }

/-- Execute a step. -/
def step (order : ByteOrder) (r : Reception) : ReceptionStep → Option Reception
  | .recv result =>
    match r.phase with
    | .header operation =>
      if operation.Receives result then
        some { r with
          phase := .header (operation.perform result), received := r.received ++ result.data }
      else none
    | .body operation =>
      if operation.Receives result then some (r.recvBody operation result) else none
    | .finalizing | .failed _ | .overflowed => none
  | .complete =>
    match r.phase with
    | .header (.completed (.ok bytes)) => some (r.onHeader order bytes)
    | .body (.completed (.ok _)) => some r.finalizeReception
    | .header (.completed (.error ec)) | .body (.completed (.error ec)) =>
      some { r with phase := .failed ec }
    | .header (.ongoing _ _) | .body (.ongoing _ _) | .finalizing | .failed _ | .overflowed => none
  | .resume =>
    match r.phase with
    | .finalizing =>
      some ({ r with incomingMessage := r.incomingMessage.clear }).receiveMessageHeader
    | .header _ | .body _ | .failed _ | .overflowed => none

/-- The loop of a connection on a host with the given byte order. It starts when the connection is
validated. -/
def machine (order : ByteOrder) : Machine Reception ReceptionStep where
  init r := r = ({ phase := .finalizing } : Reception).receiveMessageHeader
  step := step order

/-- The loop waits for `recv()`. -/
def Waiting (r : Reception) : Prop :=
  match r.phase with
  | .header (.ongoing _ _) | .body (.ongoing _ _) => True
  | .header (.completed _) | .body (.completed _) | .finalizing | .failed _ | .overflowed => False

/-- The loop has not seen the end of the stream or an error. -/
def Healthy (r : Reception) : Prop :=
  match r.phase with
  | .header (.completed (.error _)) | .body (.completed (.error _)) | .failed _ => False
  | .header (.completed (.ok _)) | .body (.completed (.ok _)) | .header (.ongoing _ _)
  | .body (.ongoing _ _) | .finalizing | .overflowed => True

end Reception

/-! ## Messages as a stream -/

namespace GenericMessage2

/-- The bytes of a message are its header and as many bytes as the header says. -/
def WellFramed (m : GenericMessage2) : Prop :=
  ∃ body, m.dataView = m.header ++ body ∧ body.length = m.bodyLength

theorem wellFramed_ofPayload {order : ByteOrder} {type : MessageType} {payload : CString}
    (h : payload.Sendable) : (ofPayload order type payload).WellFramed := by
  refine ⟨payload.memory, dataView_ofPayload h, ?_⟩
  rw [payload.length_memory, bodyLength_ofPayload h]

/-- The body has at least the terminating zero byte. -/
theorem hasBody_ofPayload {order : ByteOrder} {type : MessageType} {payload : CString}
    (h : payload.Sendable) : (ofPayload order type payload).hasBody = true := by
  have hlen : (ofPayload order type payload).payloadLen.toNat = payload.strlen + 1 :=
    bodyLength_ofPayload h
  rw [hasBody, hlen]
  exact decide_eq_true (Nat.succ_pos _)

theorem bodyLength_pos_iff (m : GenericMessage2) : 0 < m.bodyLength ↔ m.hasBody = true :=
  decide_eq_true_iff.symm

/-- A message without a body consists of its header. -/
theorem WellFramed.dataView_eq_header {m : GenericMessage2} (hm : m.WellFramed)
    (hnone : m.hasBody = false) : m.dataView = m.header := by
  obtain ⟨body, hview, hbody⟩ := hm
  have hzero : ¬ 0 < m.bodyLength := by simp [bodyLength_pos_iff, hnone]
  rw [hview, List.eq_nil_of_length_eq_zero (hbody.trans (Nat.eq_zero_of_not_pos hzero)),
    List.append_nil]

/-- What the receiver of a message is told. -/
def summary (m : GenericMessage2) : MessageType × ℕ := (m.type, m.bodyLength)

/-- The bytes of several messages. -/
def stream (sent : List GenericMessage2) : List UInt8 := sent.flatMap dataView

/-- The sizes to ask for. -/
def requested (sent : List GenericMessage2) : List ℕ :=
  sent.flatMap fun m => headerLength :: if m.hasBody then [m.bodyLength] else []

theorem stream_append (sent sent' : List GenericMessage2) :
    stream (sent ++ sent') = stream sent ++ stream sent' := List.flatMap_append

theorem requested_append (sent sent' : List GenericMessage2) :
    requested (sent ++ sent') = requested sent ++ requested sent' := List.flatMap_append

/-- Five bytes at the start of a stream are the header of its first message. -/
theorem eq_header_of_isPrefix {rest : List GenericMessage2} (hrest : ∀ m ∈ rest, m.WellFramed)
    {part : List UInt8} (hlen : part.length = headerLength) (h : part <+: stream rest) :
    ∃ m rest', rest = m :: rest' ∧ part = m.header := by
  cases rest with
  | nil =>
    have : part = [] := List.prefix_nil.mp h
    simp [this, headerLength] at hlen
  | cons m rest' =>
    obtain ⟨body, hview, -⟩ := hrest m List.mem_cons_self
    -- two prefixes of the same length are equal
    have hheader : m.header <+: stream (m :: rest') := by
      refine ⟨body ++ stream rest', ?_⟩
      simp [stream, hview]
    have hlen' : part.length = m.header.length := by rw [hlen, length_header]
    exact ⟨m, rest', rfl,
      (List.prefix_of_prefix_length_le h hheader (Nat.le_of_eq hlen')).eq_of_length hlen'⟩

end GenericMessage2

/-! ## The body is received behind the end of `data_` -/

namespace GenericMessage2

variable {m : GenericMessage2}

/-- Nothing is received of a body as long as `data_` holds the header only. -/
theorem receiveInto_nil (hlen : m.data.length = headerLength) :
    m.receiveInto (m.bodyView.next 0 0) [] = some m := by
  have hinside : (m.bodyView.next 0 0).Inside m.data := Nat.le_of_eq hlen.symm
  have hcopy : memcpy m.data (m.bodyView.next 0 0).offset [] = m.data := by simp [memcpy]
  rw [receiveInto, if_pos hinside, hcopy]

/-- The first byte of a body is behind the end of `data_`. -/
theorem receiveInto_eq_none (hlen : m.data.length = headerLength) {bytes : List UInt8}
    (hbytes : bytes ≠ []) : m.receiveInto (m.bodyView.next 0 bytes.length) bytes = none := by
  have hpos : 0 < bytes.length := List.length_pos_iff.mpr hbytes
  refine if_neg fun hinside => ?_
  simp only [BufferView.Inside, BufferView.next, bodyView, hlen] at hinside
  omega

/-- The receiver of a header keeps its five bytes. -/
theorem data_commitHeaderUpdate (order : ByteOrder) (m : GenericMessage2) :
    (m.commitHeaderUpdate order).data = m.data := by
  rw [commitHeaderUpdate]
  split
  · rfl
  · rfl

end GenericMessage2

/-! ## The loop is in sync -/

namespace Reception

open GenericMessage2 (headerLength stream requested summary)

variable {order : ByteOrder} {sent : List GenericMessage2} {r r' : Reception} {a : ReceptionStep}

/-- The loop has handed over the messages `done` and is somewhere in the next one. -/
inductive InSync (sent : List GenericMessage2) (r : Reception) : Prop
  | header {done rest : List GenericMessage2} {part : List UInt8} {operation : ReceiveOperation}
      (hsent : sent = done ++ rest)
      (hdelivered : r.delivered.map summary = done.map summary)
      (hphase : r.phase = .header operation)
      (hoperation : operation.Progress headerLength part)
      (hreceived : r.received = stream done ++ part)
      (hrequests : r.requests = requested done ++ [headerLength])
  | body {done rest : List GenericMessage2} {m : GenericMessage2} {operation : ReceiveOperation}
      (hsent : sent = done ++ m :: rest)
      (hbody : m.hasBody = true)
      (hdelivered : r.delivered.map summary = done.map summary)
      (hphase : r.phase = .body operation)
      (hoperation : operation.Progress m.bodyLength [])
      (hdata : r.incomingMessage.data.length = headerLength)
      (hreceived : r.received = stream done ++ m.header)
      (hrequests : r.requests = requested done ++ [headerLength, m.bodyLength])
  | finalizing {done rest : List GenericMessage2}
      (hsent : sent = done ++ rest)
      (hdelivered : r.delivered.map summary = done.map summary)
      (hphase : r.phase = .finalizing)
      (hreceived : r.received = stream done)
      (hrequests : r.requests = requested done)
  | failed {ec : SockErrorCode}
      (hdelivered : r.delivered.map summary <+: sent.map summary)
      (hphase : r.phase = .failed ec)
      (hrequests : r.requests <+: requested sent ++ [headerLength])
  | overflowed
      (hbody : ∃ m ∈ sent, m.hasBody = true)
      (hdelivered : r.delivered.map summary <+: sent.map summary)
      (hphase : r.phase = .overflowed)
      (hrequests : r.requests <+: requested sent ++ [headerLength])

/-- The loop enters `ReceiveMessageHeader()` after it has handed over some messages. -/
theorem inSync_receiveMessageHeader {done rest : List GenericMessage2} (hsent : sent = done ++ rest)
    (hdelivered : r.delivered.map summary = done.map summary) (hreceived : r.received = stream done)
    (hrequests : r.requests = requested done) : InSync sent r.receiveMessageHeader := by
  refine .header hsent hdelivered rfl (ReceiveOperation.progress_receiveAsync ?_)
    (hreceived.trans (List.append_nil _).symm) ?_
  · exact Nat.succ_pos _
  · rw [← hrequests]
    rfl

theorem InSync.delivered_isPrefix (h : InSync sent r) :
    r.delivered.map summary <+: sent.map summary := by
  cases h with
  | header hsent hdelivered | body hsent _ hdelivered | finalizing hsent hdelivered =>
    rw [hdelivered, hsent, List.map_append]
    exact List.prefix_append _ _
  | failed hdelivered | overflowed _ hdelivered => exact hdelivered

theorem InSync.requests_isPrefix (h : InSync sent r) :
    r.requests <+: requested sent ++ [headerLength] := by
  cases h with
  | @header done rest part operation hsent _ _ _ _ hrequests =>
    rw [hrequests, hsent, GenericMessage2.requested_append, List.append_assoc]
    refine (List.prefix_append_right_inj _).mpr ?_
    -- the next message, if there is one, also starts with a header
    cases rest with
    | nil => exact List.prefix_refl _
    | cons m rest => exact ⟨(if m.hasBody then [m.bodyLength] else []) ++
        (requested rest ++ [headerLength]), by simp [requested]⟩
  | @body done rest m operation hsent hbody _ _ _ _ _ hrequests =>
    rw [hrequests, hsent, GenericMessage2.requested_append, List.append_assoc]
    refine (List.prefix_append_right_inj _).mpr ⟨requested rest ++ [headerLength], ?_⟩
    simp [requested, hbody]
  | finalizing hsent _ _ _ hrequests =>
    rw [hrequests, hsent, GenericMessage2.requested_append, List.append_assoc]
    exact List.prefix_append _ _
  | failed _ _ hrequests | overflowed _ _ _ hrequests => exact hrequests

/-- The loop goes by the type and the length that the sender has put into the header. -/
theorem exists_onHeader_eq (order : ByteOrder) (r : Reception) (m : GenericMessage2) :
    ∃ read : GenericMessage2, read.summary = m.summary ∧ read.data = m.header ∧
      r.onHeader order m.header =
        if m.hasBody then ({ r with incomingMessage := read }).receiveMessageBody
        else ({ r with incomingMessage := read }).finalizeReception := by
  have hdata : ({ r.incomingMessage with data := m.header } : GenericMessage2).data =
      m.header := rfl
  obtain ⟨htype, hlen⟩ := GenericMessage2.commitHeaderUpdate_header order hdata
  refine ⟨({ r.incomingMessage with data := m.header } : GenericMessage2).commitHeaderUpdate order,
    Prod.ext htype (congrArg BitVec.toNat hlen),
    GenericMessage2.data_commitHeaderUpdate order _, ?_⟩
  rw [Reception.onHeader, GenericMessage2.hasBody, hlen, GenericMessage2.hasBody]

/-- The completion handler of the header asks for the body of the message, or hands over a message
that has none. -/
theorem InSync.onHeader {done rest : List GenericMessage2} {m : GenericMessage2}
    (hm : m.WellFramed) (hsent : sent = done ++ m :: rest)
    (hdelivered : r.delivered.map summary = done.map summary)
    (hreceived : r.received = stream done ++ m.header)
    (hrequests : r.requests = requested done ++ [headerLength]) :
    InSync sent (r.onHeader order m.header) := by
  obtain ⟨read, hsummary, hdata, heq⟩ := exists_onHeader_eq order r m
  have hlength : read.bodyLength = m.bodyLength := congrArg Prod.snd hsummary
  rw [heq]
  cases hbody : m.hasBody with
  | true =>
    rw [if_pos rfl]
    refine .body hsent hbody hdelivered rfl ?_ ?_ hreceived ?_
    · change (ReceiveOperation.receiveAsync read.bodyLength).Progress m.bodyLength []
      rw [hlength]
      exact ReceiveOperation.progress_receiveAsync (m.bodyLength_pos_iff.mpr hbody)
    · change read.data.length = headerLength
      rw [hdata, GenericMessage2.length_header]
    · change r.requests ++ [read.bodyLength] = _
      rw [hrequests, hlength, List.append_assoc]
      rfl
  | false =>
    rw [if_neg Bool.false_ne_true]
    have hsent' : sent = (done ++ [m]) ++ rest := by simp [hsent]
    refine .finalizing hsent' ?_ rfl ?_ ?_
    · change (r.delivered ++ [read]).map summary = _
      rw [List.map_append, List.map_append, hdelivered, List.map_singleton, List.map_singleton,
        hsummary]
    · change r.received = _
      rw [hreceived, GenericMessage2.stream_append, stream, stream, List.flatMap_singleton,
        hm.dataView_eq_header hbody]
    · change r.requests = _
      simp [hrequests, requested, hbody]

/-- As soon as `recv()` returns a part of a body, the loop has written behind the end of `data_`. -/
theorem recvBody_eq_overflowed {operation : ReceiveOperation} {result : RecvResult}
    (hdata : r.incomingMessage.data.length = headerLength) (hempty : operation.filledLength = 0)
    (hresult : result.data ≠ []) :
    r.recvBody operation result =
      { r with received := r.received ++ result.data, phase := .overflowed } := by
  simp only [Reception.recvBody, hempty, GenericMessage2.receiveInto_eq_none hdata hresult]

/-- The loop is in sync when `recv()` returns to the receive of a body. -/
theorem InSync.recvBody {done rest : List GenericMessage2} {m : GenericMessage2}
    {operation : ReceiveOperation} {result : RecvResult} (h : InSync sent r)
    (hsent : sent = done ++ m :: rest) (hbody : m.hasBody = true)
    (hdelivered : r.delivered.map summary = done.map summary)
    (hoperation : operation.Progress m.bodyLength [])
    (hdata : r.incomingMessage.data.length = headerLength)
    (hreceived : r.received = stream done ++ m.header)
    (hrequests : r.requests = requested done ++ [headerLength, m.bodyLength])
    (hresult : operation.Receives result) : InSync sent (r.recvBody operation result) := by
  cases hoperation with
  | completed | failed => exact hresult.elim
  | ongoing hlt =>
    have hprogress := (ReceiveOperation.Progress.ongoing hlt).perform hresult
    by_cases hnone : result.data = []
    · -- nothing was written: there are no bytes yet, or the stream has ended
      rw [hnone, List.append_nil] at hprogress
      simp only [Reception.recvBody, hnone, ReceiveOperation.filledLength, List.length_nil,
        List.append_nil, GenericMessage2.receiveInto_nil hdata]
      exact .body hsent hbody hdelivered rfl hprogress hdata hreceived hrequests
    · rw [recvBody_eq_overflowed hdata rfl hnone]
      have hmem : m ∈ sent := hsent ▸ List.mem_append_right _ List.mem_cons_self
      exact .overflowed ⟨m, hmem, hbody⟩ h.delivered_isPrefix rfl h.requests_isPrefix

/-- The loop stays in sync. -/
theorem InSync.step (hsent : ∀ m ∈ sent, m.WellFramed) (h : InSync sent r)
    (hstream : r.received <+: stream sent) (hstep : r.step order a = some r') : InSync sent r' := by
  -- what remains known of a loop that fails
  have hdelivered' := h.delivered_isPrefix
  have hrequests' := h.requests_isPrefix
  have hsync := h
  cases h with
  | @header done rest part operation hsplit hdelivered hphase hoperation hreceived hrequests =>
    cases a with
    | recv result =>
      simp only [Reception.step, hphase] at hstep
      split_ifs at hstep with hresult
      obtain rfl := Option.some.inj hstep
      refine .header hsplit hdelivered rfl (hoperation.perform hresult) ?_ hrequests
      rw [hreceived, List.append_assoc]
    | complete =>
      cases hoperation with
      | ongoing => simp [Reception.step, hphase] at hstep
      | completed hlen =>
        simp only [Reception.step, hphase, Option.some.injEq] at hstep
        subst hstep
        -- the five bytes are the header of the next message
        have hpart : part <+: stream rest := by
          rw [hreceived, hsplit, GenericMessage2.stream_append] at hstream
          exact (List.prefix_append_right_inj _).mp hstream
        have hrest : ∀ m ∈ rest, m.WellFramed := by
          intro m hm
          exact hsent m (hsplit ▸ List.mem_append_right _ hm)
        obtain ⟨m, rest', rfl, rfl⟩ := GenericMessage2.eq_header_of_isPrefix hrest hlen hpart
        exact InSync.onHeader (hrest m List.mem_cons_self) hsplit hdelivered hreceived hrequests
      | failed ec =>
        simp only [Reception.step, hphase, Option.some.injEq] at hstep
        subst hstep
        exact .failed hdelivered' rfl hrequests'
    | resume => simp [Reception.step, hphase] at hstep
  | @body done rest m operation hsplit hbody hdelivered hphase hoperation hdata hreceived
    hrequests =>
    cases a with
    | recv result =>
      simp only [Reception.step, hphase] at hstep
      split_ifs at hstep with hresult
      obtain rfl := Option.some.inj hstep
      exact hsync.recvBody hsplit hbody hdelivered hoperation hdata hreceived hrequests hresult
    | complete =>
      cases hoperation with
      | ongoing => simp [Reception.step, hphase] at hstep
      | completed hlen =>
        -- a body has at least one byte, which was not received
        exact absurd hlen (Nat.ne_of_lt (m.bodyLength_pos_iff.mpr hbody))
      | failed ec =>
        simp only [Reception.step, hphase, Option.some.injEq] at hstep
        subst hstep
        exact .failed hdelivered' rfl hrequests'
    | resume => simp [Reception.step, hphase] at hstep
  | @finalizing done rest hsplit hdelivered hphase hreceived hrequests =>
    cases a with
    | recv result => simp [Reception.step, hphase] at hstep
    | complete => simp [Reception.step, hphase] at hstep
    | resume =>
      simp only [Reception.step, hphase, Option.some.injEq] at hstep
      subst hstep
      exact inSync_receiveMessageHeader hsplit hdelivered hreceived hrequests
  | failed _ hphase | overflowed _ _ hphase =>
    cases a with
    | recv result | complete | resume => simp [Reception.step, hphase] at hstep

@[simp]
theorem received_recvBody (operation : ReceiveOperation) (result : RecvResult) (r : Reception) :
    (r.recvBody operation result).received = r.received ++ result.data := by
  rw [recvBody]
  split
  · rfl
  · rfl

/-- A step only adds to the received bytes. -/
theorem received_isPrefix_of_step (hstep : r.step order a = some r') :
    r.received <+: r'.received := by
  cases a with
  | recv result =>
    simp only [Reception.step] at hstep
    split at hstep
    · split_ifs at hstep
      obtain rfl := Option.some.inj hstep
      exact List.prefix_append _ _
    · split_ifs at hstep
      obtain rfl := Option.some.inj hstep
      rw [received_recvBody]
      exact List.prefix_append _ _
    all_goals cases hstep
  | complete =>
    simp only [Reception.step] at hstep
    split at hstep <;> cases hstep
    · rw [Reception.onHeader]
      split <;> exact List.prefix_refl _
    · exact List.prefix_refl _
    · exact List.prefix_refl _
    · exact List.prefix_refl _
  | resume =>
    simp only [Reception.step] at hstep
    split at hstep <;> cases hstep
    exact List.prefix_refl _

/-- On the bytes of well-framed messages, the loop is in sync in every state it reaches. -/
theorem inSync_of_reachable (hsent : ∀ m ∈ sent, m.WellFramed)
    (hr : (machine order).Reachable r) (hstream : r.received <+: stream sent) : InSync sent r := by
  induction hr with
  | init hinit =>
    obtain rfl := hinit
    exact inSync_receiveMessageHeader (List.nil_append _).symm rfl rfl rfl
  | step _ _ hstep ih =>
    -- the bytes received before the step are also the start of the stream
    have hbefore := (received_isPrefix_of_step hstep).trans hstream
    exact (ih hbefore).step hsent hbefore hstep

/-- A loop that waits for `recv()` and has received the bytes of all messages has handed over all of
them, and asks for the next header. -/
theorem InSync.eq_of_waiting (hsent : ∀ m ∈ sent, m.WellFramed) (h : InSync sent r)
    (hall : r.received = stream sent) (hwaiting : r.Waiting) :
    r.delivered.map summary = sent.map summary ∧ r.requests = requested sent ++ [headerLength] := by
  cases h with
  | @header done rest part operation hsplit hdelivered hphase hoperation hreceived hrequests =>
    cases hoperation with
    | completed | failed => simp [Waiting, hphase] at hwaiting
    | ongoing hlt =>
      have hpart : part = stream rest := by
        rw [hreceived, hsplit, GenericMessage2.stream_append] at hall
        exact List.append_cancel_left hall
      -- less than a header is left, so no message is
      cases rest with
      | nil =>
        rw [List.append_nil] at hsplit
        subst hsplit
        exact ⟨hdelivered, hrequests⟩
      | cons m rest =>
        have hm : m.WellFramed := hsent m (hsplit ▸ List.mem_append_right _ List.mem_cons_self)
        obtain ⟨body, hview, -⟩ := hm
        have hlen : headerLength ≤ part.length := by
          rw [hpart, stream, List.flatMap_cons, hview]
          simp only [List.length_append, GenericMessage2.length_header]
          omega
        exact absurd hlt (Nat.not_lt_of_le hlen)
  | @body done rest m operation hsplit hbody _ _ _ _ hreceived =>
    have hm : m.WellFramed := hsent m (hsplit ▸ List.mem_append_right _ List.mem_cons_self)
    obtain ⟨body, hview, hlen⟩ := hm
    -- the body is missing, so not all is received
    have hrest : m.header = stream (m :: rest) := by
      rw [hreceived, hsplit, GenericMessage2.stream_append] at hall
      exact List.append_cancel_left hall
    have hlength := congrArg List.length hrest
    rw [stream, List.flatMap_cons, hview] at hlength
    simp only [List.length_append] at hlength
    have hpos := m.bodyLength_pos_iff.mpr hbody
    omega
  | finalizing _ _ hphase | failed _ hphase | overflowed _ _ hphase =>
    simp [Waiting, hphase] at hwaiting

/-- A loop that waits for `recv()` takes any byte. -/
theorem InSync.receives (order : ByteOrder) (h : InSync sent r) (hwaiting : r.Waiting)
    (byte : UInt8) :
    (r.step order (.recv (.bytes [byte]))).isSome := by
  cases h with
  | header _ _ hphase hoperation | body _ _ _ hphase hoperation =>
    cases hoperation with
    | completed | failed => simp [Waiting, hphase] at hwaiting
    | @ongoing hlt =>
      -- an operation that is ongoing has asked for at least one more byte
      have hone : 1 ≤ _ - _ := Nat.sub_pos_of_lt hlt
      have hresult : (RecvResult.bytes [byte]).data.length ≤ _ - _ := hone
      rw [Reception.step, hphase]
      exact congrArg Option.isSome (if_pos hresult)
  | finalizing _ _ hphase | failed _ hphase | overflowed _ _ hphase =>
    simp [Waiting, hphase] at hwaiting

theorem waiting_receiveMessageHeader (r : Reception) : r.receiveMessageHeader.Waiting := by
  simp [Waiting, receiveMessageHeader, ReceiveOperation.receiveAsync, headerLength]

theorem waiting_receiveMessageBody (h : r.incomingMessage.hasBody = true) :
    r.receiveMessageBody.Waiting := by
  have hpos : r.incomingMessage.bodyLength ≠ 0 := Nat.ne_of_gt (of_decide_eq_true h)
  simp [Waiting, receiveMessageBody, ReceiveOperation.receiveAsync, hpos]

/-- After the header, the loop waits for the body or has handed over the message. -/
theorem waiting_or_finalizing_onHeader (order : ByteOrder) (bytes : List UInt8) (r : Reception) :
    (r.onHeader order bytes).Waiting ∨ (r.onHeader order bytes).phase = .finalizing := by
  rw [onHeader]
  split
  · rename_i hbody
    exact .inl (waiting_receiveMessageBody hbody)
  · exact .inr rfl

theorem received_onHeader (order : ByteOrder) (bytes : List UInt8) (r : Reception) :
    (r.onHeader order bytes).received = r.received := by
  rw [onHeader]
  split
  · rfl
  · rfl

/-- Once the message is handed over, the loop waits after one more step. -/
theorem exists_waiting_of_finalizing (order : ByteOrder) (h : r.phase = .finalizing) :
    ∃ r', (machine order).run Machine.Always r [.resume] = some r' ∧ r'.Waiting ∧
      r'.received = r.received := by
  refine ⟨({ r with incomingMessage := r.incomingMessage.clear }).receiveMessageHeader, ?_,
    waiting_receiveMessageHeader _, rfl⟩
  simp [Machine.run, machine, step, h]

/-- Unless there was an error or an overflow, the loop waits for `recv()` again after at most two
steps of its own. -/
theorem Healthy.exists_waiting (h : r.Healthy) (hinside : r.phase ≠ .overflowed) :
    ∃ as r', as.length ≤ 2 ∧ (∀ a ∈ as, a = .complete ∨ a = .resume) ∧
      (machine order).run Machine.Always r as = some r' ∧ r'.Waiting ∧
      r'.received = r.received := by
  obtain ⟨incoming, phase, received, requests, delivered⟩ := r
  cases phase with
  | failed => exact h.elim
  | overflowed => exact absurd rfl hinside
  | finalizing =>
    exact ⟨[.resume], _, by decide, by simp, rfl, waiting_receiveMessageHeader _, rfl⟩
  | header operation =>
    cases operation with
    | ongoing => exact ⟨[], _, by decide, by simp, rfl, trivial, rfl⟩
    | completed result =>
      cases result with
      | error => exact h.elim
      | ok bytes =>
        rcases waiting_or_finalizing_onHeader order bytes
            ⟨incoming, .header (.completed (.ok bytes)), received, requests, delivered⟩ with hw | hf
        · exact ⟨[.complete], _, by decide, by simp, rfl, hw, received_onHeader _ _ _⟩
        · -- a message without body is handed over at once
          obtain ⟨r', hrun, hwaiting, hreceived⟩ :=
            exists_waiting_of_finalizing order hf
          refine ⟨[.complete, .resume], r', by decide, by simp, hrun, hwaiting, ?_⟩
          exact hreceived.trans (received_onHeader _ _ _)
  | body operation =>
    cases operation with
    | ongoing => exact ⟨[], _, by decide, by simp, rfl, trivial, rfl⟩
    | completed result =>
      cases result with
      | error => exact h.elim
      | ok bytes =>
        exact ⟨[.complete, .resume], _, by decide, by simp, rfl, waiting_receiveMessageHeader _,
          rfl⟩

/-! ## Main result -/

/-- A loop that has received a part of the bytes of some messages has handed over some of them, in
order and with their types and lengths, and has asked for a header and a body for each of them. When
it has received all bytes and waits for more, it has handed over exactly the messages. Unless there
was an error, it waits again at most two steps after each `recv()`, and then takes any byte. -/
structure Framed (order : ByteOrder) (sent : List GenericMessage2) (r : Reception) : Prop where
  delivered : r.delivered.map (fun m => (m.type, m.bodyLength)) <+:
    sent.map (fun m => (m.type, m.bodyLength))
  requests : r.requests <+:
    sent.flatMap (fun m => 5 :: if m.hasBody then [m.bodyLength] else []) ++ [5]
  complete : r.received = sent.flatMap (·.dataView) → r.Waiting →
    r.delivered.map (fun m => (m.type, m.bodyLength)) =
        sent.map (fun m => (m.type, m.bodyLength)) ∧
      r.requests = sent.flatMap (fun m => 5 :: if m.hasBody then [m.bodyLength] else []) ++ [5]
  waits : r.Healthy → ∃ as r', as.length ≤ 2 ∧ (∀ a ∈ as, a = .complete ∨ a = .resume) ∧
    (machine order).run Machine.Always r as = some r' ∧ r'.Waiting ∧ r'.received = r.received
  receives : r.Waiting → ∀ byte, ((machine order).step r (.recv (.bytes [byte]))).isSome

/-- In whatever pieces the bytes of the messages arrive, the loop is framed. -/
def StaysInSync (order : ByteOrder) (sent : List GenericMessage2) : Prop :=
  ∀ r, (machine order).Reachable r → r.received <+: sent.flatMap (·.dataView) →
    r.Framed order sent

/-- Messages without a body are received inside of `data_`. -/
theorem staysInSync_of_no_body (order : ByteOrder) (hsent : ∀ m ∈ sent, m.WellFramed)
    (hnone : ∀ m ∈ sent, m.hasBody = false) : StaysInSync order sent := by
  intro r hr hstream
  have hsync : InSync sent r := inSync_of_reachable hsent hr hstream
  have hinside : r.phase ≠ .overflowed := by
    intro hphase
    cases hsync with
    | header _ _ hphase' | body _ _ _ hphase' | finalizing _ _ hphase' | failed _ hphase' =>
      simp [hphase] at hphase'
    | overflowed hbody =>
      obtain ⟨m, hm, hm'⟩ := hbody
      simp [hnone m hm] at hm'
  exact {
    delivered := hsync.delivered_isPrefix
    requests := hsync.requests_isPrefix
    complete := hsync.eq_of_waiting hsent
    waits := fun hhealthy => hhealthy.exists_waiting hinside
    receives := hsync.receives order }

/-- The loop waits for the first byte of a header. -/
def AwaitsHeader (r : Reception) : Prop :=
  r.phase = .header (.receiveAsync headerLength)

/-- The header of the next message arrives in one piece. -/
theorem reachable_onHeader (hr : (machine order).Reachable r) (hawaits : r.AwaitsHeader)
    (m : GenericMessage2) :
    (machine order).Reachable
      (({ r with
        phase := .header (.completed (.ok m.header))
        received := r.received ++ m.header } : Reception).onHeader order m.header) := by
  have hresult : (ReceiveOperation.receiveAsync headerLength).Receives (.bytes m.header) :=
    Nat.le_of_eq m.length_header
  have hperform : (ReceiveOperation.receiveAsync headerLength).perform (.bytes m.header) =
      .completed (.ok m.header) := by
    simp [ReceiveOperation.receiveAsync, ReceiveOperation.perform, headerLength]
  have hstep : r.step order (.recv (.bytes m.header)) =
      some { r with
        phase := .header (.completed (.ok m.header))
        received := r.received ++ m.header } := by
    rw [Reception.step, show r.phase = _ from hawaits]
    simp only [if_pos hresult, hperform, RecvResult.data]
  have hr' := hr.step (a := ReceptionStep.recv (.bytes m.header)) trivial hstep
  exact hr'.step (a := ReceptionStep.complete) trivial rfl

/-- The loop gets to the header behind messages without a body. -/
theorem exists_awaitsHeader (order : ByteOrder) {done : List GenericMessage2}
    (hdone : ∀ m ∈ done, m.WellFramed) (hnone : ∀ m ∈ done, m.hasBody = false) :
    ∃ r, (machine order).Reachable r ∧ r.AwaitsHeader ∧ r.received = stream done := by
  induction done using List.reverseRecOn with
  | nil => exact ⟨_, .init rfl, rfl, rfl⟩
  | append_singleton done m ih =>
    obtain ⟨r, hr, hawaits, hreceived⟩ := ih
      (fun m' hm' => hdone m' (List.mem_append_left _ hm'))
      (fun m' hm' => hnone m' (List.mem_append_left _ hm'))
    have hm := hdone m (by simp)
    have hbody := hnone m (by simp)
    have hr' := reachable_onHeader hr hawaits m
    obtain ⟨read, -, -, heq⟩ := exists_onHeader_eq order { r with
      phase := .header (.completed (.ok m.header))
      received := r.received ++ m.header } m
    rw [heq, hbody, if_neg Bool.false_ne_true] at hr'
    refine ⟨_, hr'.step (a := ReceptionStep.resume) trivial rfl, rfl, ?_⟩
    change r.received ++ m.header = _
    rw [hreceived, GenericMessage2.stream_append, stream, stream, List.flatMap_singleton,
      hm.dataView_eq_header hbody]

/-- The first byte of the first body is written behind the end of `data_`. -/
theorem exists_overflowed (order : ByteOrder) {done : List GenericMessage2}
    {m : GenericMessage2} (hdone : ∀ m ∈ done, m.WellFramed)
    (hnone : ∀ m ∈ done, m.hasBody = false) (hm : m.WellFramed) (hbody : m.hasBody = true)
    (rest : List GenericMessage2) :
    ∃ r, (machine order).Reachable r ∧ r.phase = .overflowed ∧
      r.received <+: stream (done ++ m :: rest) := by
  obtain ⟨r, hr, hawaits, hreceived⟩ := exists_awaitsHeader order hdone hnone
  obtain ⟨body, hview, hlen⟩ := hm
  have hr' := reachable_onHeader hr hawaits m
  obtain ⟨read, hsummary, hdata, heq⟩ := exists_onHeader_eq order { r with
    phase := .header (.completed (.ok m.header))
    received := r.received ++ m.header } m
  have hlength : read.bodyLength = m.bodyLength := congrArg Prod.snd hsummary
  rw [heq, hbody, if_pos rfl] at hr'
  have hpos : m.bodyLength ≠ 0 := Nat.ne_of_gt (m.bodyLength_pos_iff.mpr hbody)
  cases body with
  | nil => exact absurd hlen.symm hpos
  | cons byte body =>
    have hresult : (ReceiveOperation.receiveAsync read.bodyLength).Receives (.bytes [byte]) := by
      rw [ReceiveOperation.receiveAsync, hlength, if_neg hpos]
      exact Nat.one_le_iff_ne_zero.mpr hpos
    have hempty : (ReceiveOperation.receiveAsync read.bodyLength).filledLength = 0 := by
      rw [ReceiveOperation.receiveAsync, hlength, if_neg hpos]
      rfl
    have hheader : read.data.length = headerLength := by rw [hdata, m.length_header]
    have hr'' := hr'.step (a := ReceptionStep.recv (.bytes [byte])) trivial (if_pos hresult)
    rw [recvBody_eq_overflowed (by exact hheader) hempty (by simp [RecvResult.data])] at hr''
    refine ⟨_, hr'', rfl, ?_⟩
    change (r.received ++ m.header) ++ [byte] <+: _
    rw [hreceived, GenericMessage2.stream_append]
    refine ⟨body ++ stream rest, ?_⟩
    simp [stream, hview]

theorem exists_first_body (hsome : ¬ ∀ m ∈ sent, m.hasBody = false) :
    ∃ m done rest, sent = done ++ m :: rest ∧ m.hasBody = true ∧
      ∀ m' ∈ done, m'.hasBody = false := by
  have hfind : ∃ m, sent.find? (·.hasBody) = some m := by
    rw [← Option.isSome_iff_exists, List.find?_isSome]
    simpa using hsome
  obtain ⟨m, hm⟩ := hfind
  obtain ⟨hbody, done, rest, hsplit, hnone⟩ := List.find?_eq_some_iff_append.mp hm
  exact ⟨m, done, rest, hsplit, hbody, by simpa using hnone⟩

/-- A loop that has written behind the end of `data_` does not wait for `recv()` again. -/
theorem not_framed_of_overflowed (hphase : r.phase = .overflowed) : ¬ r.Framed order sent := by
  intro hframed
  have hhealthy : r.Healthy := by simp [Healthy, hphase]
  obtain ⟨as, r', -, -, hrun, hwaiting, -⟩ := hframed.waits hhealthy
  cases as with
  | nil =>
    obtain rfl := Option.some.inj hrun
    simp [Waiting, hphase] at hwaiting
  | cons a as =>
    have hnone : (machine order).step r a = none := by
      cases a with
      | recv | complete | resume => simp [machine, step, hphase]
    simp [Machine.run, hnone] at hrun

/-- The loop gets through to the end of some messages exactly if none of them has a body. A message
that the constructor builds always has one. -/
theorem framing_in_sync (order : ByteOrder) :
    (∀ sent : List GenericMessage2, (∀ m ∈ sent, m.WellFramed) →
      (StaysInSync order sent ↔ ∀ m ∈ sent, m.hasBody = false)) ∧
    ∀ (senderOrder : ByteOrder) (payloads : List (MessageType × CString)),
      (∀ p ∈ payloads, p.2.strlen < 2 ^ 32 - 6) →
      (StaysInSync order (payloads.map fun p => .ofPayload senderOrder p.1 p.2) ↔
        payloads = []) := by
  have hframed : ∀ sent : List GenericMessage2, (∀ m ∈ sent, m.WellFramed) →
      (StaysInSync order sent ↔ ∀ m ∈ sent, m.hasBody = false) := by
    intro sent hsent
    refine ⟨fun hsync => ?_, staysInSync_of_no_body order hsent⟩
    by_contra hsome
    -- take the first message with a body
    obtain ⟨m, done, rest, rfl, hbody, hnone⟩ := exists_first_body hsome
    obtain ⟨r, hr, hphase, hstream⟩ := exists_overflowed order
      (fun m' hm' => hsent m' (List.mem_append_left _ hm')) hnone (hsent m (by simp)) hbody rest
    exact not_framed_of_overflowed hphase (hsync r hr hstream)
  refine ⟨hframed, ?_⟩
  intro senderOrder payloads hpayloads
  have hsendable : ∀ p ∈ payloads, p.2.Sendable := hpayloads
  rw [hframed _ (List.forall_mem_map.mpr fun p hp =>
    GenericMessage2.wellFramed_ofPayload (hsendable p hp)), List.forall_mem_map]
  constructor
  · intro hnone
    refine List.eq_nil_iff_forall_not_mem.mpr fun p hp => ?_
    have hbody : (GenericMessage2.ofPayload senderOrder p.1 p.2).hasBody = true :=
      GenericMessage2.hasBody_ofPayload (hsendable p hp)
    simp [hnone p hp] at hbody
  · rintro rfl p hp
    simp at hp

/-- Two messages of a little-endian host, of which the second has no body, are received by a
big-endian one; a message with the text `hi` is not. -/
theorem framing_in_sync_header_only :
    StaysInSync .bigEndian [⟨[2, 0, 0, 0, 0], .kDummy2, 0⟩] ∧
      ¬ StaysInSync .bigEndian [.ofPayload .littleEndian .kDummy1 ⟨[104, 105], by decide⟩] := by
  have hmain := framing_in_sync .bigEndian
  refine ⟨(hmain.1 [⟨[2, 0, 0, 0, 0], .kDummy2, 0⟩] ?_).mpr (by decide), fun hsync => ?_⟩
  · intro m hm
    obtain rfl := List.mem_singleton.mp hm
    exact ⟨[], rfl, rfl⟩
  · have hnil := (hmain.2 .littleEndian [(.kDummy1, ⟨[104, 105], by decide⟩)] (by decide)).mp hsync
    cases hnil

/-- The first byte of the text `hi` is written behind the end of `data_`. -/
theorem framing_in_sync_first_byte :
    ¬ StaysInSync .littleEndian [.ofPayload .littleEndian .kDummy1 ⟨[104, 105], by decide⟩] ∧
      ∃ r, (machine .littleEndian).Reachable r ∧ r.received = [1, 0, 0, 0, 3, 104] ∧
        r.phase = .overflowed ∧ r.delivered = [] := by
  have hr := Machine.reachableIn_get_run (M := machine .littleEndian) (C := Machine.Always)
    (l := [.recv (.bytes [1, 0, 0, 0, 3]), .complete, .recv (.bytes [104])]) rfl (by decide)
  refine ⟨fun hsync => ?_, _, hr, rfl, rfl, rfl⟩
  exact not_framed_of_overflowed rfl (hsync _ hr (by decide))

end Reception

/-! ## Where the body is received -/

namespace GenericMessage2

/-- The header says that there is no body exactly if its length bytes are zero. -/
theorem payloadLen_commitHeaderUpdate_eq_zero_iff (order : ByteOrder) {m : GenericMessage2}
    (hlen : m.data.length = headerLength) :
    (m.commitHeaderUpdate order).payloadLen = 0 ↔ ∀ byte ∈ m.data.drop 1, byte = 0 := by
  have hbytes : (m.data.drop 1).length = 4 := by rw [List.length_drop, hlen, headerLength]
  have hread : (m.commitHeaderUpdate order).payloadLen = load .bigEndian 4 (m.data.drop 1) := by
    rw [commitHeaderUpdate, if_neg (by omega)]
    simp only [List.take_of_length_le (Nat.le_of_eq hbytes)]
    exact NetworkOrder.toHost_ofData order hbytes
  rw [hread]
  constructor
  · intro hzero
    -- the bytes are those of the number zero
    have hstore : store .bigEndian (load .bigEndian 4 (m.data.drop 1)) = m.data.drop 1 :=
      store_load hbytes
    rw [hzero] at hstore
    intro byte hbyte
    rw [← hstore] at hbyte
    exact List.eq_of_mem_replicate (n := 4) hbyte
  · intro hzero
    have hreplicate : m.data.drop 1 = List.replicate 4 0 :=
      List.eq_replicate_iff.mpr ⟨hbytes, hzero⟩
    rw [hreplicate]
    rfl

end GenericMessage2

namespace Reception

variable {order : ByteOrder} {r r' : Reception}

/-- The view that is passed to `ReceiveAsync()` for a body lies inside of `data_`. -/
def BodyInside (r : Reception) : Prop :=
  ∀ operation, r.phase = .body operation →
    r.incomingMessage.bodyView.Inside r.incomingMessage.data

/-- A header is received with an operation for five bytes. -/
def HeaderProgress (r : Reception) : Prop :=
  ∀ operation, r.phase = .header operation →
    ∃ part, operation.Progress GenericMessage2.headerLength part

theorem headerProgress_receiveMessageHeader (r : Reception) :
    r.receiveMessageHeader.HeaderProgress := by
  intro operation hphase
  obtain rfl := Phase.header.inj hphase
  exact ⟨[], ReceiveOperation.progress_receiveAsync (Nat.succ_pos _)⟩

theorem headerProgress_onHeader (order : ByteOrder) (bytes : List UInt8) (r : Reception) :
    (r.onHeader order bytes).HeaderProgress := by
  intro operation hphase
  simp only [onHeader] at hphase
  split at hphase
  · cases hphase
  · cases hphase

theorem headerProgress_recvBody (operation : ReceiveOperation) (result : RecvResult)
    (r : Reception) : (r.recvBody operation result).HeaderProgress := by
  intro operation' hphase
  simp only [recvBody] at hphase
  split at hphase
  · cases hphase
  · cases hphase

theorem HeaderProgress.step (h : r.HeaderProgress) {a : ReceptionStep}
    (hstep : r.step order a = some r') : r'.HeaderProgress := by
  cases a with
  | recv result =>
    simp only [Reception.step] at hstep
    split at hstep
    · rename_i operation hphase
      split_ifs at hstep with hresult
      obtain rfl := Option.some.inj hstep
      obtain ⟨part, hprogress⟩ := h operation hphase
      intro operation' hphase'
      obtain rfl := Phase.header.inj hphase'
      -- the part received grows by what the kernel has returned
      exact ⟨_, hprogress.perform hresult⟩
    · split_ifs at hstep with hresult
      obtain rfl := Option.some.inj hstep
      exact headerProgress_recvBody _ _ r
    all_goals cases hstep
  | complete =>
    simp only [Reception.step] at hstep
    split at hstep
    · obtain rfl := Option.some.inj hstep
      -- the handler of the header does not ask for another one itself
      exact headerProgress_onHeader order _ r
    · obtain rfl := Option.some.inj hstep
      exact nofun
    · obtain rfl := Option.some.inj hstep
      exact nofun
    · obtain rfl := Option.some.inj hstep
      exact nofun
    all_goals cases hstep
  | resume =>
    simp only [Reception.step] at hstep
    split at hstep
    · obtain rfl := Option.some.inj hstep
      exact headerProgress_receiveMessageHeader _
    all_goals cases hstep

/-- The header that is completed has five bytes. -/
theorem length_header_of_reachable (hr : (machine order).Reachable r) {bytes : List UInt8}
    (hphase : r.phase = .header (.completed (.ok bytes))) :
    bytes.length = GenericMessage2.headerLength := by
  have hprogress : r.HeaderProgress := by
    refine hr.invariant ?_ ?_
    · rintro _ rfl
      exact headerProgress_receiveMessageHeader _
    · intro r a r' h _ hstep
      exact h.step hstep
  obtain ⟨part, hpart⟩ := hprogress _ hphase
  cases hpart with
  | completed hlen => exact hlen

/-- Whatever header the peer sends, the body that it announces is received inside of `data_` exactly
if it announces none. -/
theorem body_inside_iff (hr : (machine order).Reachable r) {bytes : List UInt8}
    (hphase : r.phase = .header (.completed (.ok bytes))) :
    (r.onHeader order bytes).BodyInside ↔ ∀ byte ∈ bytes.drop 1, byte = 0 := by
  have hlen := length_header_of_reachable hr hphase
  have hzero := GenericMessage2.payloadLen_commitHeaderUpdate_eq_zero_iff order
    (m := { r.incomingMessage with data := bytes }) hlen
  -- the header is all that `data_` holds
  have hdata : (({ r.incomingMessage with data := bytes }).commitHeaderUpdate order).data =
      bytes := by
    rw [GenericMessage2.commitHeaderUpdate, if_neg]
    exact Nat.not_lt_of_le (Nat.le_of_eq hlen.symm)
  rw [← hzero, onHeader]
  generalize ({ r.incomingMessage with data := bytes }).commitHeaderUpdate order = m at hdata
  have hhas : m.hasBody = true ↔ m.payloadLen ≠ 0 := by
    simp [GenericMessage2.hasBody, Nat.pos_iff_ne_zero, BitVec.toNat_eq]
  dsimp only
  by_cases hnone : m.payloadLen = 0
  · refine iff_of_true ?_ hnone
    rw [if_neg fun h => hhas.mp h hnone]
    intro operation hbody
    cases hbody
  · refine iff_of_false ?_ hnone
    rw [if_pos (hhas.mpr hnone)]
    intro hinside
    have hview := hinside _ rfl
    simp only [receiveMessageBody, BufferView.Inside, GenericMessage2.bodyView, hdata,
      hlen] at hview
    have hpos : m.payloadLen.toNat ≠ 0 := fun h => hnone (BitVec.eq_of_toNat_eq h)
    omega

/-- A message without a body is received. -/
theorem body_inside_no_body :
    ∃ r, (machine .littleEndian).Reachable r ∧
      r.phase = .header (.completed (.ok [2, 0, 0, 0, 0])) ∧
      (r.onHeader .littleEndian [2, 0, 0, 0, 0]).BodyInside := by
  have hr := Machine.reachableIn_get_run (M := machine .littleEndian) (C := Machine.Always)
    (l := [.recv (.bytes [2, 0, 0]), .recv (.bytes [0, 0])]) rfl (by decide)
  exact ⟨_, hr, rfl, (body_inside_iff hr rfl).mpr (by simp)⟩

/-- A body of three bytes is announced: it is received behind the five bytes of `data_`. -/
theorem body_inside_three_bytes :
    ∃ r, (machine .littleEndian).Reachable r ∧
      r.phase = .header (.completed (.ok [1, 0, 0, 0, 3])) ∧
      ¬ (r.onHeader .littleEndian [1, 0, 0, 0, 3]).BodyInside := by
  have hr := Machine.reachableIn_get_run (M := machine .littleEndian) (C := Machine.Always)
    (l := [.recv (.bytes [1, 0, 0, 0, 3])]) rfl (by decide)
  refine ⟨_, hr, rfl, fun hinside => ?_⟩
  have hview := hinside (.receiveAsync 3) rfl
  exact absurd hview (by decide)

end Reception

end Asrt.ClientServer
