import Asrt.ClientServer.Handshake

/-!
# What every step of a connection keeps

Only `recv()` adds to the received bytes, what is written stays written, and a connection reports an
authentication failure only when the server finds a wrong key.

## Main results

- `received_of_step`, `written_isPrefix_of_step`: the bytes in and out.
- `NotRejected.step`: no other error is taken for an authentication failure.
- `ValidatedBehind.step`: behind the handshake, the connection is validated.
-/

namespace Asrt.ClientServer

open ToMathlib Socket.ByteStream

/-- The bytes that a step takes from the stream. -/
def Action.data : Action → List UInt8
  | recv result => result.data
  | initiateHandshake _ | complete _ | sendBackloggedMessages _ | onClientValidated
  | receiveMessageHeader | resume | send _ | sendSync _ | close | proceed _ _ | perform _ => []

namespace Connection

variable {identity : Identity} {order : ByteOrder} {capacity : ℕ} {seed : BitVec (8 * 8)}
  {c c' : Connection} {a : Action}

/-! ## Bytes in and out -/

theorem received_initiateHandshake (identity : Identity) (order : ByteOrder) (t : Transmission)
    (c : Connection) : (c.initiateHandshake identity order t).received = c.received := by
  simp only [initiateHandshake, writeSeed]
  split
  · cases identity with
    | kClient => rfl
    | kServer =>
      dsimp only
      split <;> rfl
  · rfl

theorem received_onKey (order : ByteOrder) (result : Except SockErrorCode (List UInt8))
    (c : Connection) : (c.onKey order result).received = c.received := by
  simp only [onKey]
  split
  · split <;> rfl
  · rfl

theorem received_onSeed (order : ByteOrder) (result : Except SockErrorCode (List UInt8))
    (t : Transmission) (c : Connection) : (c.onSeed order result t).received = c.received := by
  simp only [onSeed]
  split
  · exact received_writeKey t
  · rfl

/-- Only `recv()` adds to the received bytes. -/
theorem received_of_step (hstep : c.step identity order capacity a = some c') :
    c'.received = c.received ++ a.data := by
  cases a with
  | send | sendSync | close | proceed | perform =>
    rw [(sameHandshake_of_isLocal hstep trivial).received]
    exact (List.append_nil _).symm
  | initiateHandshake t =>
    simp only [step] at hstep
    split at hstep
    · split at hstep
      · obtain rfl := Option.some.inj hstep
        rw [received_initiateHandshake]
        exact (List.append_nil _).symm
      · cases hstep
    all_goals cases hstep
  | recv result =>
    simp only [step] at hstep
    split at hstep
    · simp only [recv] at hstep
      split at hstep
      · split at hstep
        · obtain rfl := Option.some.inj hstep
          rfl
        · cases hstep
      · split at hstep
        · obtain rfl := Option.some.inj hstep
          rfl
        · cases hstep
      · obtain ⟨-, -, hreceived, -⟩ := receptionStep_eq hstep
        exact hreceived
      all_goals cases hstep
    · cases hstep
  | complete t =>
    rw [Action.data, List.append_nil]
    simp only [step] at hstep
    split at hstep
    · simp only [complete] at hstep
      split at hstep
      · obtain rfl := Option.some.inj hstep
        exact received_onSeed _ _ _ _
      · obtain rfl := Option.some.inj hstep
        exact received_onKey _ _ _
      · obtain ⟨-, -, hreceived, -⟩ := receptionStep_eq hstep
        exact hreceived
      all_goals cases hstep
    · cases hstep
  | resume =>
    rw [Action.data, List.append_nil]
    simp only [step] at hstep
    split at hstep
    · obtain ⟨-, -, hreceived, -⟩ := receptionStep_eq hstep
      exact hreceived
    all_goals cases hstep
  | sendBackloggedMessages ts =>
    rw [Action.data, List.append_nil]
    simp only [step] at hstep
    split at hstep
    · obtain rfl := Option.some.inj hstep
      simp only [sendBackloggedMessages]
      split <;> rfl
    all_goals cases hstep
  | onClientValidated | receiveMessageHeader =>
    rw [Action.data, List.append_nil]
    simp only [step] at hstep
    split at hstep
    · rename_i hstage
      obtain rfl := Option.some.inj hstep
      rfl
    all_goals cases hstep

theorem written_isPrefix_writeSeed (order : ByteOrder) (t : Transmission) (c : Connection) :
    c.socket.written <+: (c.writeSeed order t).socket.written := by
  have hsend := c.socket.written_isPrefix_sendSync (c.authSeed.data order) t
  simp only [writeSeed]
  split
  · exact hsend
  · exact hsend
  · exact hsend

theorem written_isPrefix_writeKey (order : ByteOrder) (t : Transmission) (c : Connection) :
    c.socket.written <+: (c.writeKey order t).socket.written := by
  have hsend := fun buf => c.socket.written_isPrefix_sendSync buf t
  simp only [writeKey]
  split
  · exact hsend _
  · exact hsend _
  · exact hsend _

theorem HandshakeStep.written_isPrefix (h : HandshakeStep identity order capacity c c') :
    c.socket.written <+: c'.socket.written := by
  cases h with
  | initiateHandshake t hidle ht =>
    simp only [Connection.initiateHandshake]
    split
    · cases identity with
      | kServer => exact written_isPrefix_writeSeed order t c
      | kClient => exact List.prefix_refl _
    · exact List.prefix_refl _
  | recvSeed | recvKey | onClientValidated | receiveMessageHeader => exact List.prefix_refl _
  | recvMessage r result hstage hloop =>
    obtain ⟨-, -, -, -, hwritten⟩ := receptionStep_eq hloop
    exact hwritten ▸ List.prefix_refl _
  | goOn r b hstage hloop =>
    obtain ⟨-, -, -, -, hwritten⟩ := receptionStep_eq hloop
    exact hwritten ▸ List.prefix_refl _
  | onSeed result t hstage ht =>
    simp only [Connection.onSeed]
    split
    · exact written_isPrefix_writeKey order t { c with authSeed := .ofData order _ }
    · exact List.prefix_refl _
  | onKey result hstage =>
    simp only [Connection.onKey]
    split
    · split <;> exact List.prefix_refl _
    · exact List.prefix_refl _
  | sendBackloggedMessages ts hstage =>
    have hloop := written_isPrefix_sendBacklogLoop c.outbox c.socket ts
    simp only [Connection.sendBackloggedMessages]
    split
    · rename_i heq
      rwa [heq] at hloop
    · rename_i heq
      rwa [heq] at hloop

/-- What is written stays written. -/
theorem written_isPrefix_of_step (hstep : c.step identity order capacity a = some c') :
    c.socket.written <+: c'.socket.written := by
  rcases isLocal_or_handshakeStep hstep with ha | hhandshake
  · exact written_isPrefix_of_isLocal hstep ha
  · exact hhandshake.written_isPrefix

end Connection

/-! ## Errors -/

/-- The code of the error that a server reports about a peer that does not know the key. -/
abbrev rejection : SockErrorCode := .connectionAuthenticationFailed

/-- No receive, and no step of the reception loop, is about to report a rejection. -/
def Stage.NotRejected : Stage → Prop
  | readSeed operation | readKey operation => operation ≠ .completed (.error rejection)
  | reception r =>
    match r.phase with
    | .header operation | .body operation => operation ≠ .completed (.error rejection)
    | .failed ec => ec ≠ rejection
    | .finalizing | .overflowed => True
  | idle | sendBacklog | notifyOwner | startReception | ended => True

theorem ReceiveOperation.perform_ne_rejection {operation : ReceiveOperation}
    (h : operation ≠ .completed (.error rejection)) (result : RecvResult) :
    operation.perform result ≠ .completed (.error rejection) := by
  cases operation with
  | completed => exact h
  | ongoing size filled =>
    cases result with
    | busy | error => simp [ReceiveOperation.perform]
    | bytes data =>
      rw [ReceiveOperation.perform]
      split_ifs <;> simp

theorem ReceiveOperation.receiveAsync_ne_rejection (size : ℕ) :
    ReceiveOperation.receiveAsync size ≠ .completed (.error rejection) := by
  rw [ReceiveOperation.receiveAsync]
  split_ifs <;> simp

theorem sendAllLoop_ne_rejection (buf : List UInt8) (beyond : ℕ → UInt8) (sentBytes : ℕ)
    (results : List SendResult) :
    (sendAllLoop buf beyond sentBytes results).2 ≠ some (.error rejection) := by
  induction results generalizing sentBytes with
  | nil => simp [sendAllLoop]
  | cons result results ih =>
    cases result with
    | busy | error => simp [sendAllLoop]
    | bytes count =>
      rw [sendAllLoop]
      split_ifs
      · simp
      · exact ih _

theorem sendSync_ne_rejection (o : Outgoing) (buf : List UInt8) (t : Transmission) :
    (o.sendSync buf t).2 ≠ some (.error rejection) := by
  rw [Outgoing.sendSync]
  split
  · rename_i ec hcheck
    rw [Outgoing.checkSendPossible] at hcheck
    split_ifs at hcheck <;> cases hcheck <;> simp
  · exact sendAllLoop_ne_rejection _ _ _ _

theorem performSend_ne_rejection (o : Outgoing) (buf : List UInt8) (result : SendResult) :
    (o.performSend buf result).2 ≠ some (.error rejection) := by
  cases result with
  | busy | error => simp [Outgoing.performSend]
  | bytes count =>
    rw [Outgoing.performSend]
    split_ifs <;> simp

theorem sendAsync_ne_rejection (o : Outgoing) (buf : List UInt8) (result : SendResult) :
    (o.sendAsync buf result).2 ≠ some (.error rejection) := by
  rw [Outgoing.sendAsync]
  split_ifs
  · simp
  · exact performSend_ne_rejection _ _ _

namespace Connection

variable {identity : Identity} {order : ByteOrder} {capacity : ℕ} {c c' : Connection} {a : Action}

/-- The connection has not rejected its peer, and is not about to report that it has. -/
structure NotRejected (c : Connection) : Prop where
  errors : rejection ∉ c.connectionErrors
  calls : .sendCompleted (.error rejection) ∉ c.calls
  stage : c.stage.NotRejected

theorem NotRejected.postCompletion (h : NotRejected c)
    {sent : Outgoing × Option (Except SockErrorCode Unit)}
    (hsent : sent.2 ≠ some (.error rejection)) : NotRejected (c.postCompletion sent) := by
  obtain ⟨socket, _ | result⟩ := sent
  · exact ⟨h.errors, h.calls, h.stage⟩
  · refine ⟨h.errors, ?_, h.stage⟩
    intro hmem
    rcases List.mem_cons.mp hmem with heq | hmem
    · exact hsent (congrArg some (Call.sendCompleted.inj heq).symm)
    · exact h.calls hmem

theorem NotRejected.handleCommunicationError (h : NotRejected c) {ec : SockErrorCode}
    (hec : ec ≠ rejection) : NotRejected (c.handleCommunicationError ec) := by
  refine ⟨?_, h.calls, h.stage⟩
  intro hmem
  rcases List.mem_append.mp hmem with hmem | hmem
  · exact h.errors hmem
  · exact hec (List.mem_singleton.mp hmem).symm

/-- A new call is not the completion of a failed send. -/
theorem NotRejected.cons (h : NotRejected c) {call : Call}
    (hcall : ∀ result, call ≠ .sendCompleted result) :
    NotRejected { c with calls := call :: c.calls } := by
  refine ⟨h.errors, ?_, h.stage⟩
  intro hmem
  rcases List.mem_cons.mp hmem with heq | hmem
  · exact hcall _ heq.symm
  · exact h.calls hmem

theorem NotRejected.proceed (h : NotRejected c) (outcome : Outcome) {call : Call}
    (hcall : call ≠ .sendCompleted (.error rejection)) :
    NotRejected (c.proceed identity outcome call) := by
  cases call with
  | doSendMessage2 message =>
    have h' : NotRejected { c with outbox := c.outbox ++ [message] } := ⟨h.errors, h.calls, h.stage⟩
    simp only [Connection.proceed]
    split
    · exact h'
    · exact h'.cons (by simp)
  | doSendNextMessage => exact h.postCompletion (sendAsync_ne_rejection _ _ _)
  | sendCompleted result =>
    have h' : NotRejected { c with outbox := c.outbox.tail } := ⟨h.errors, h.calls, h.stage⟩
    simp only [Connection.proceed]
    split
    · split
      · exact h'
      · exact h'.cons (by simp)
    · refine h'.handleCommunicationError ?_
      rintro rfl
      exact hcall rfl
  | sendSync message =>
    simp only [Connection.proceed]
    split <;> exact h.cons (by simp)
  | saveMessage message | close => exact ⟨h.errors, h.calls, h.stage⟩
  | sendDirectly message =>
    -- the error is not passed on: the socket is closed, or the message is kept
    have hsocket : ∀ socket, NotRejected { c with socket } :=
      fun socket => ⟨h.errors, h.calls, h.stage⟩
    have hclose : ∀ socket, NotRejected { c with socket, calls := .close :: c.calls } :=
      fun socket => (hsocket socket).cons (by simp)
    simp only [Connection.proceed]
    split
    · exact hsocket _
    · exact hsocket _
    · cases identity with
      | kServer => exact hclose _
      | kClient =>
        dsimp only
        split
        · exact ⟨h.errors, h.calls, h.stage⟩
        · exact hclose _

theorem NotRejected.of_isLocal (h : NotRejected c)
    (hstep : c.step identity order capacity a = some c') (ha : a.IsLocal) : NotRejected c' := by
  cases a with
  | initiateHandshake | recv | complete | sendBackloggedMessages | onClientValidated
  | receiveMessageHeader | resume => exact ha.elim
  | send message | sendSync message | close =>
    obtain rfl := Option.some.inj hstep
    exact h.cons (by simp)
  | proceed call outcome =>
    simp only [step] at hstep
    split at hstep
    · rename_i hmem
      obtain rfl := Option.some.inj hstep
      have h' : NotRejected { c with calls := c.calls.erase call } :=
        ⟨h.errors, fun hmem => h.calls (List.mem_of_mem_erase hmem), h.stage⟩
      refine h'.proceed outcome ?_
      rintro rfl
      exact h.calls hmem
    · cases hstep
  | perform result =>
    simp only [step] at hstep
    split at hstep
    · cases hstep
    · split at hstep
      · obtain rfl := Option.some.inj hstep
        exact h.postCompletion (performSend_ne_rejection _ _ _)
      · cases hstep

/-- The loop fails with what the kernel has reported to it. -/
theorem NotRejected.receptionStep {r : Reception} {b : ReceptionStep} (h : NotRejected c)
    (hr : (Stage.reception r).NotRejected) (hstep : c.receptionStep order r b = some c') :
    NotRejected c' := by
  simp only [Connection.receptionStep] at hstep
  split at hstep
  · cases hstep
  · rename_i r' hr'
    have hnext : (Stage.reception r').NotRejected := by
      cases b with
      | recv result =>
        simp only [Reception.step] at hr'
        split at hr'
        · rename_i hphase
          split_ifs at hr'
          obtain rfl := Option.some.inj hr'
          simp only [Stage.NotRejected, hphase] at hr
          exact ReceiveOperation.perform_ne_rejection hr result
        · rename_i hphase
          split_ifs at hr'
          obtain rfl := Option.some.inj hr'
          simp only [Stage.NotRejected, hphase] at hr
          rw [Reception.recvBody]
          split
          · exact ReceiveOperation.perform_ne_rejection hr result
          · trivial
        all_goals cases hr'
      | complete =>
        simp only [Reception.step] at hr'
        split at hr'
        · obtain rfl := Option.some.inj hr'
          rw [Reception.onHeader]
          split
          · exact ReceiveOperation.receiveAsync_ne_rejection _
          · trivial
        · obtain rfl := Option.some.inj hr'
          trivial
        · rename_i ec hphase
          obtain rfl := Option.some.inj hr'
          simp only [Stage.NotRejected, hphase] at hr
          rintro rfl
          exact hr rfl
        · rename_i ec hphase
          obtain rfl := Option.some.inj hr'
          simp only [Stage.NotRejected, hphase] at hr
          rintro rfl
          exact hr rfl
        all_goals cases hr'
      | resume =>
        simp only [Reception.step] at hr'
        split at hr'
        · obtain rfl := Option.some.inj hr'
          exact ReceiveOperation.receiveAsync_ne_rejection _
        all_goals cases hr'
    have h' : NotRejected { c with stage := .reception r' } := ⟨h.errors, h.calls, hnext⟩
    split at hstep
    · rename_i ec hphase
      obtain rfl := Option.some.inj hstep
      simp only [Stage.NotRejected, hphase] at hnext
      exact h'.handleCommunicationError hnext
    all_goals
      obtain rfl := Option.some.inj hstep
      exact h'

/-- A connection that ends with an error of the kernel does not reject its peer. -/
theorem NotRejected.ended (h : NotRejected c) {ec : SockErrorCode} (hec : ec ≠ rejection) :
    NotRejected { c.handleCommunicationError ec with stage := .ended } :=
  ⟨(h.handleCommunicationError hec).errors, h.calls, trivial⟩

theorem NotRejected.writeSeed (h : NotRejected c) (t : Transmission) :
    NotRejected (c.writeSeed order t) := by
  have hsend := sendSync_ne_rejection c.socket (c.authSeed.data order) t
  have hsocket : ∀ socket, NotRejected { c with socket } :=
    fun socket => ⟨h.errors, h.calls, h.stage⟩
  simp only [Connection.writeSeed]
  split
  · exact ⟨h.errors, h.calls, trivial⟩
  · exact ⟨h.errors, h.calls, ReceiveOperation.receiveAsync_ne_rejection _⟩
  · rename_i ec heq
    refine (hsocket _).ended ?_
    rintro rfl
    exact hsend heq

theorem NotRejected.writeKey (h : NotRejected c) (t : Transmission) :
    NotRejected (c.writeKey order t) := by
  have hsend := fun buf => sendSync_ne_rejection c.socket buf t
  have hsocket : ∀ socket key, NotRejected { c with socket, authKey := key } :=
    fun socket key => ⟨h.errors, h.calls, h.stage⟩
  simp only [Connection.writeKey]
  split
  · exact ⟨h.errors, h.calls, trivial⟩
  · exact ⟨h.errors, h.calls, trivial⟩
  · rename_i ec heq
    refine (hsocket _ _).ended ?_
    rintro rfl
    exact hsend _ heq

/-- Unless the server finds a wrong key, a step does not reject the peer. -/
theorem NotRejected.step (h : NotRejected c) (hstep : c.step identity order capacity a = some c')
    (hkey : ∀ bytes, c.stage = .readKey (.completed (.ok bytes)) →
      (NetworkOrder.ofData order bytes : NetworkOrder 8).toHost order = c.privKey) :
    NotRejected c' := by
  rcases isLocal_or_handshakeStep hstep with ha | hhandshake
  · exact h.of_isLocal hstep ha
  have hstage := h.stage
  cases hhandshake with
  | initiateHandshake t hidle ht =>
    simp only [initiateHandshake]
    split
    · cases identity with
      | kServer => exact h.writeSeed t
      | kClient => exact ⟨h.errors, h.calls, ReceiveOperation.receiveAsync_ne_rejection _⟩
    · exact ⟨h.errors, h.calls, trivial⟩
  | recvSeed operation result heq hresult | recvKey operation result heq hresult =>
    rw [heq] at hstage
    exact ⟨h.errors, h.calls, ReceiveOperation.perform_ne_rejection hstage result⟩
  | recvMessage r result heq hloop =>
    have h' : NotRejected { c with received := c.received ++ result.data } :=
      ⟨h.errors, h.calls, h.stage⟩
    exact h'.receptionStep (heq ▸ hstage) hloop
  | goOn r b heq hloop => exact h.receptionStep (heq ▸ hstage) hloop
  | onSeed result t heq ht =>
    simp only [onSeed]
    split
    · rename_i bytes
      have h' : NotRejected { c with authSeed := .ofData order bytes } :=
        ⟨h.errors, h.calls, h.stage⟩
      exact h'.writeKey t
    · refine h.ended ?_
      rintro rfl
      rw [heq] at hstage
      exact hstage rfl
  | onKey result heq =>
    simp only [onKey]
    split
    · rw [if_pos (hkey _ heq)]
      exact ⟨h.errors, h.calls, trivial⟩
    · refine h.ended ?_
      rintro rfl
      rw [heq] at hstage
      exact hstage rfl
  | sendBackloggedMessages ts heq =>
    simp only [sendBackloggedMessages]
    split
    · exact ⟨h.errors, h.calls, trivial⟩
    · cases identity <;> exact ⟨h.errors, h.calls, trivial⟩
  | onClientValidated heq => exact ⟨h.errors, h.calls, trivial⟩
  | receiveMessageHeader heq =>
    exact ⟨h.errors, h.calls, ReceiveOperation.receiveAsync_ne_rejection _⟩

/-! ## Validated connections -/

/-- Behind the handshake, the connection is validated. -/
def ValidatedBehind (c : Connection) : Prop :=
  match c.stage with
  | .sendBacklog | .notifyOwner | .startReception | .reception _ => c.isConnectionValidated = true
  | .idle | .readSeed _ | .readKey _ | .ended => True

theorem receptionStep_agrees {r : Reception} {b : ReceptionStep}
    (h : c.receptionStep order r b = some c') :
    c'.isConnectionValidated = c.isConnectionValidated ∧ c'.authSeed = c.authSeed := by
  simp only [receptionStep] at h
  split at h
  · cases h
  · split at h <;>
    · obtain rfl := Option.some.inj h
      exact ⟨rfl, rfl⟩

theorem ValidatedBehind.receptionStep {r : Reception} {b : ReceptionStep}
    (h : c.isConnectionValidated = true) (hstep : c.receptionStep order r b = some c') :
    ValidatedBehind c' := by
  obtain ⟨r', hstage, -⟩ := receptionStep_eq hstep
  rw [ValidatedBehind, hstage]
  exact (receptionStep_agrees hstep).1.trans h

theorem ValidatedBehind.step (h : ValidatedBehind c)
    (hstep : c.step identity order capacity a = some c') : ValidatedBehind c' := by
  rcases isLocal_or_handshakeStep hstep with ha | hhandshake
  · have hsame := sameHandshake_of_isLocal hstep ha
    rw [ValidatedBehind, hsame.stage, hsame.validated]
    exact h
  cases hhandshake with
  | initiateHandshake t hidle ht =>
    simp only [initiateHandshake, writeSeed]
    split
    · cases identity with
      | kClient => trivial
      | kServer =>
        dsimp only
        split <;> trivial
    · trivial
  | recvSeed | recvKey => trivial
  | recvMessage r result heq hloop =>
    simp only [ValidatedBehind, heq] at h
    exact ValidatedBehind.receptionStep (c := { c with received := c.received ++ result.data }) h
      hloop
  | goOn r b heq hloop =>
    simp only [ValidatedBehind, heq] at h
    exact ValidatedBehind.receptionStep h hloop
  | onSeed result t heq ht =>
    simp only [onSeed, writeKey]
    split
    · split <;> trivial
    · trivial
  | onKey result heq =>
    simp only [onKey]
    split
    · split <;> trivial
    · trivial
  | sendBackloggedMessages ts heq =>
    simp only [ValidatedBehind, heq] at h
    simp only [sendBackloggedMessages]
    split
    · trivial
    · cases identity <;> exact h
  | onClientValidated heq | receiveMessageHeader heq =>
    simp only [ValidatedBehind, heq] at h
    exact h

end Connection

end Asrt.ClientServer
