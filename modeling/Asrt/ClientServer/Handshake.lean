import Asrt.ClientServer.Connection

/-!
# The handshake

The server sends a seed and reads a key; the client reads the seed and sends the key that it
computes from it. Until the connection is validated, `Send()` and `SendSync()` only add to
`outbox_`.

## Main results

- `handshake`: a server hands over messages, calls `OnClientValidated()` and sends anything but the
  seed only if the first eight bytes that it has received are the key. A client that receives the
  seed of a server sends this key, whatever the byte orders of the two.
-/

namespace Asrt.ClientServer

open ToMathlib Socket.ByteStream

/-- The calls that do not send anything by themselves. -/
def Call.Harmless : Call → Prop
  | doSendMessage2 _ | sendSync _ | saveMessage _ | close => True
  | doSendNextMessage | sendCompleted _ | sendDirectly _ => False

/-- The steps outside of the sequence of completion handlers. -/
def Action.IsLocal : Action → Prop
  | send _ | sendSync _ | close | proceed _ _ | perform _ => True
  | initiateHandshake _ | recv _ | complete _ | sendBackloggedMessages _ | onClientValidated
  | receiveMessageHeader | resume => False

namespace Connection

variable {identity : Identity} {order : ByteOrder} {capacity : ℕ} {c c' : Connection} {a : Action}

/-! ## Steps of the others -/

/-- Nothing but the outbox, the socket and the calls differ. -/
structure SameHandshake (c c' : Connection) : Prop where
  authSeed : c'.authSeed = c.authSeed
  privKey : c'.privKey = c.privKey
  stage : c'.stage = c.stage
  received : c'.received = c.received
  clientValidated : c'.clientValidated = c.clientValidated
  validated : c'.isConnectionValidated = c.isConnectionValidated

theorem sameHandshake_postCompletion (sent : Outgoing × Option (Except SockErrorCode Unit))
    (c : Connection) : SameHandshake c (c.postCompletion sent) := by
  obtain ⟨socket, _ | result⟩ := sent
  · exact ⟨rfl, rfl, rfl, rfl, rfl, rfl⟩
  · exact ⟨rfl, rfl, rfl, rfl, rfl, rfl⟩

theorem sameHandshake_proceed (identity : Identity) (outcome : Outcome) (c : Connection)
    (call : Call) :
    SameHandshake c (c.proceed identity outcome call) := by
  cases call with
  | doSendMessage2 message =>
    simp only [proceed]
    split <;> exact ⟨rfl, rfl, rfl, rfl, rfl, rfl⟩
  | doSendNextMessage => exact sameHandshake_postCompletion _ c
  | sendCompleted result =>
    simp only [proceed]
    split
    · split <;> exact ⟨rfl, rfl, rfl, rfl, rfl, rfl⟩
    · exact ⟨rfl, rfl, rfl, rfl, rfl, rfl⟩
  | sendSync message =>
    simp only [proceed]
    split <;> exact ⟨rfl, rfl, rfl, rfl, rfl, rfl⟩
  | saveMessage message => exact ⟨rfl, rfl, rfl, rfl, rfl, rfl⟩
  | sendDirectly message =>
    simp only [proceed]
    split
    · exact ⟨rfl, rfl, rfl, rfl, rfl, rfl⟩
    · exact ⟨rfl, rfl, rfl, rfl, rfl, rfl⟩
    · cases identity with
      | kServer => exact ⟨rfl, rfl, rfl, rfl, rfl, rfl⟩
      | kClient =>
        dsimp only
        split <;> exact ⟨rfl, rfl, rfl, rfl, rfl, rfl⟩
  | close => exact ⟨rfl, rfl, rfl, rfl, rfl, rfl⟩

/-- What the others do does not touch the handshake. -/
theorem sameHandshake_of_isLocal (hstep : c.step identity order capacity a = some c')
    (ha : a.IsLocal) : SameHandshake c c' := by
  cases a with
  | initiateHandshake | recv | complete | sendBackloggedMessages | onClientValidated
  | receiveMessageHeader | resume => exact ha.elim
  | send message | sendSync message | close =>
    obtain rfl := Option.some.inj hstep
    exact ⟨rfl, rfl, rfl, rfl, rfl, rfl⟩
  | proceed call outcome =>
    simp only [step] at hstep
    split at hstep
    · obtain rfl := Option.some.inj hstep
      have h := sameHandshake_proceed identity outcome { c with calls := c.calls.erase call } call
      exact ⟨h.authSeed, h.privKey, h.stage, h.received, h.clientValidated, h.validated⟩
    · cases hstep
  | perform result =>
    simp only [step] at hstep
    split at hstep
    · cases hstep
    · split at hstep
      · obtain rfl := Option.some.inj hstep
        exact sameHandshake_postCompletion _ c
      · cases hstep

/-- What the steps of the handshake and of the reception loop do, by the stage they are taken in. -/
inductive HandshakeStep (identity : Identity) (order : ByteOrder) (capacity : ℕ) (c : Connection) :
    Connection → Prop
  | initiateHandshake (t : Transmission) (hidle : c.stage = .idle)
      (ht : t.Allowed (c.room capacity) 8) :
      HandshakeStep identity order capacity c (c.initiateHandshake identity order t)
  | recvSeed (operation : ReceiveOperation) (result : RecvResult)
      (hstage : c.stage = .readSeed operation) (hresult : operation.Receives result) :
      HandshakeStep identity order capacity c
        { c with received := c.received ++ result.data
                 stage := .readSeed (operation.perform result) }
  | recvKey (operation : ReceiveOperation) (result : RecvResult)
      (hstage : c.stage = .readKey operation) (hresult : operation.Receives result) :
      HandshakeStep identity order capacity c
        { c with received := c.received ++ result.data
                 stage := .readKey (operation.perform result) }
  | recvMessage (r : Reception) (result : RecvResult) {c' : Connection}
      (hstage : c.stage = .reception r)
      (hloop : ({ c with received := c.received ++ result.data }).receptionStep order r
        (.recv result) = some c') :
      HandshakeStep identity order capacity c c'
  | onSeed (result : Except SockErrorCode (List UInt8)) (t : Transmission)
      (hstage : c.stage = .readSeed (.completed result)) (ht : t.Allowed (c.room capacity) 8) :
      HandshakeStep identity order capacity c (c.onSeed order result t)
  | onKey (result : Except SockErrorCode (List UInt8))
      (hstage : c.stage = .readKey (.completed result)) :
      HandshakeStep identity order capacity c (c.onKey order result)
  /-- The reception loop goes on without a new `recv()`. -/
  | goOn (r : Reception) (b : ReceptionStep) {c' : Connection} (hstage : c.stage = .reception r)
      (hloop : c.receptionStep order r b = some c') : HandshakeStep identity order capacity c c'
  | sendBackloggedMessages (ts : List Transmission) (hstage : c.stage = .sendBacklog) :
      HandshakeStep identity order capacity c (c.sendBackloggedMessages identity ts)
  | onClientValidated (hstage : c.stage = .notifyOwner) :
      HandshakeStep identity order capacity c
        { c with clientValidated := c.clientValidated + 1, stage := .startReception }
  | receiveMessageHeader (hstage : c.stage = .startReception) :
      HandshakeStep identity order capacity c
        { c with stage := .reception ({ phase := .finalizing } : Reception).receiveMessageHeader }

/-- A step is local, or one of the handshake or of the reception loop. -/
theorem isLocal_or_handshakeStep (hstep : c.step identity order capacity a = some c') :
    a.IsLocal ∨ HandshakeStep identity order capacity c c' := by
  cases a with
  | send | sendSync | close | proceed | perform => exact .inl trivial
  | initiateHandshake t =>
    simp only [step] at hstep
    split at hstep
    · rename_i hidle
      split at hstep
      · rename_i ht
        obtain rfl := Option.some.inj hstep
        exact .inr (.initiateHandshake t hidle ht)
      · cases hstep
    all_goals cases hstep
  | recv result =>
    simp only [step] at hstep
    split at hstep
    · -- the receive that gets the bytes is that of the stage
      simp only [recv] at hstep
      split at hstep
      · rename_i operation hstage
        split at hstep
        · rename_i hresult
          obtain rfl := Option.some.inj hstep
          exact .inr (.recvSeed operation result hstage hresult)
        · cases hstep
      · rename_i operation hstage
        split at hstep
        · rename_i hresult
          obtain rfl := Option.some.inj hstep
          exact .inr (.recvKey operation result hstage hresult)
        · cases hstep
      · rename_i r hstage
        exact .inr (.recvMessage r result hstage hstep)
      all_goals cases hstep
    · cases hstep
  | complete t =>
    simp only [step] at hstep
    split at hstep
    · rename_i ht
      -- and so is the completion handler
      simp only [complete] at hstep
      split at hstep
      · rename_i result hstage
        obtain rfl := Option.some.inj hstep
        exact .inr (.onSeed result t hstage ht)
      · rename_i result hstage
        obtain rfl := Option.some.inj hstep
        exact .inr (.onKey result hstage)
      · rename_i r hstage
        exact .inr (.goOn r .complete hstage hstep)
      all_goals cases hstep
    · cases hstep
  | resume =>
    simp only [step] at hstep
    split at hstep
    · rename_i r hstage
      exact .inr (.goOn r .resume hstage hstep)
    all_goals cases hstep
  | sendBackloggedMessages ts =>
    simp only [step] at hstep
    split at hstep
    · rename_i hstage
      obtain rfl := Option.some.inj hstep
      exact .inr (.sendBackloggedMessages ts hstage)
    all_goals cases hstep
  | onClientValidated =>
    simp only [step] at hstep
    split at hstep
    · rename_i hstage
      obtain rfl := Option.some.inj hstep
      exact .inr (.onClientValidated hstage)
    all_goals cases hstep
  | receiveMessageHeader =>
    simp only [step] at hstep
    split at hstep
    · rename_i hstage
      obtain rfl := Option.some.inj hstep
      exact .inr (.receiveMessageHeader hstage)
    all_goals cases hstep

/-- The connection is not validated, and nobody is about to send. -/
structure Quiet (c : Connection) : Prop where
  validated : c.isConnectionValidated = false
  operation : c.socket.sendOperation = none
  calls : ∀ call ∈ c.calls, call.Harmless

/-- As long as the connection is not validated, the others only add to the outbox. -/
theorem Quiet.of_isLocal (h : Quiet c) (hstep : c.step identity order capacity a = some c')
    (ha : a.IsLocal) :
    Quiet c' ∧ c'.socket.written = c.socket.written := by
  obtain ⟨hvalidated, hoperation, hcalls⟩ := h
  have hcons : ∀ {call : Call}, call.Harmless → ∀ d ∈ call :: c.calls, d.Harmless := by
    intro call hcall d hd
    rcases List.mem_cons.mp hd with rfl | hd
    · exact hcall
    · exact hcalls d hd
  cases a with
  | initiateHandshake | recv | complete | sendBackloggedMessages | onClientValidated
  | receiveMessageHeader | resume => exact ha.elim
  | send message | sendSync message | close =>
    obtain rfl := Option.some.inj hstep
    exact ⟨⟨hvalidated, hoperation, hcons trivial⟩, rfl⟩
  | perform result => simp [step, hoperation] at hstep
  | proceed call outcome =>
    simp only [step] at hstep
    split at hstep
    · rename_i hmem
      obtain rfl := Option.some.inj hstep
      have herase : ∀ d ∈ c.calls.erase call, d.Harmless :=
        fun d hd => hcalls d (List.mem_of_mem_erase hd)
      have hharmless := hcalls call hmem
      -- the calls that would write are not under way, and none of the others leads to one
      cases call with
      | doSendNextMessage | sendCompleted | sendDirectly => exact hharmless.elim
      | doSendMessage2 message =>
        simp only [proceed, hvalidated, Bool.not_false, Bool.or_true, if_true]
        exact ⟨⟨rfl, hoperation, herase⟩, trivial⟩
      | saveMessage message => exact ⟨⟨hvalidated, hoperation, herase⟩, rfl⟩
      | close => exact ⟨⟨hvalidated, hoperation, herase⟩, rfl⟩
      | sendSync message =>
        simp only [proceed, hvalidated, Bool.false_eq_true, if_false]
        refine ⟨⟨rfl, hoperation, ?_⟩, trivial⟩
        intro d hd
        rcases List.mem_cons.mp hd with rfl | hd
        · trivial
        · exact herase d hd
    · cases hstep

/-! ## The server -/

/-- The first eight bytes, in network order, are the key for the seed. -/
def Accepted (seed : BitVec (8 * 8)) (received : List UInt8) : Prop :=
  8 ≤ received.length ∧ load .bigEndian 8 (received.take 8) = computeKey seed

theorem Accepted.append {seed : BitVec (8 * 8)} {received : List UInt8} (h : Accepted seed received)
    (more : List UInt8) : Accepted seed (received ++ more) := by
  refine ⟨?_, ?_⟩
  · rw [List.length_append]
    exact Nat.le_add_right_of_le h.1
  · rw [List.take_append_of_le_length h.1]
    exact h.2

/-- The handshake of the server goes on, and nothing but the seed was sent. -/
structure Unvalidated (order : ByteOrder) (seed : BitVec (8 * 8)) (c : Connection) : Prop where
  quiet : Quiet c
  clientValidated : c.clientValidated = 0
  authSeed : c.authSeed = .ofHost order seed
  stage : match c.stage with
    | .idle => c.socket.written = []
    | .readKey _ => c.socket.written = store .bigEndian seed
    | .ended => c.socket.written <+: store .bigEndian seed
    | .readSeed _ | .sendBacklog | .notifyOwner | .startReception | .reception _ => False

/-- The invariant of the server's connection. -/
structure ServerInv (order : ByteOrder) (seed : BitVec (8 * 8)) (c : Connection) : Prop where
  privKey : c.privKey = computeKey seed
  idle : c.stage = .idle → c.received = []
  readKey : ∀ operation, c.stage = .readKey operation → operation.Progress 8 c.received
  readSeed : ∀ operation, c.stage ≠ .readSeed operation
  guarded : Accepted seed c.received ∨ Unvalidated order seed c

variable {seed : BitVec (8 * 8)}

theorem ServerInv.accepted : ServerInv order seed (Connection.accepted order seed) where
  privKey := rfl
  idle _ := rfl
  readKey _ h := by cases h
  readSeed _ h := by cases h
  guarded := .inr
    { quiet := ⟨rfl, rfl, by simp [Connection.accepted]⟩
      clientValidated := rfl
      authSeed := rfl
      stage := rfl }

/-- Steps of the others keep the invariant. -/
theorem ServerInv.of_isLocal (h : ServerInv order seed c)
    (hstep : c.step .kServer order capacity a = some c') (ha : a.IsLocal) :
    ServerInv order seed c' := by
  have hsame := sameHandshake_of_isLocal hstep ha
  refine ⟨hsame.privKey.trans h.privKey, ?_, ?_, ?_, ?_⟩
  · intro hidle
    rw [hsame.received]
    exact h.idle (hsame.stage ▸ hidle)
  · intro operation hstage
    rw [hsame.received]
    exact h.readKey operation (hsame.stage ▸ hstage)
  · intro operation hstage
    exact h.readSeed operation (hsame.stage ▸ hstage)
  · rcases h.guarded with haccepted | hunvalidated
    · exact .inl (hsame.received ▸ haccepted)
    · obtain ⟨hquiet, hwritten⟩ := hunvalidated.quiet.of_isLocal hstep ha
      refine .inr ⟨hquiet, hsame.clientValidated.trans hunvalidated.clientValidated,
        hsame.authSeed.trans hunvalidated.authSeed, ?_⟩
      rw [hsame.stage, hwritten]
      exact hunvalidated.stage

/-- Once the key is accepted, only the reception loop goes on. -/
theorem ServerInv.of_accepted (hkey : c.privKey = computeKey seed)
    (hstage : match c.stage with
      | .sendBacklog | .notifyOwner | .startReception | .reception _ | .ended => True
      | .idle | .readSeed _ | .readKey _ => False)
    (haccepted : Accepted seed c.received) : ServerInv order seed c where
  privKey := hkey
  idle h := by simp [h] at hstage
  readKey operation h := by simp [h] at hstage
  readSeed operation h := by simp [h] at hstage
  guarded := .inl haccepted

/-- `WriteSeed()` sends the seed, or nothing. -/
theorem ServerInv.writeSeed (hcapacity : minimalSendBuffer ≤ capacity)
    (h : ServerInv order seed c) (hidle : c.stage = .idle)
    (hconnected : c.socket.isConnected = true)
    {t : Transmission} (ht : t.Allowed (c.room capacity) 8) :
    ServerInv order seed (c.writeSeed order t) := by
  have hreceived := h.idle hidle
  have hunvalidated : Unvalidated order seed c := by
    -- nothing has been received yet, so no key was accepted
    refine h.guarded.resolve_left fun haccepted => ?_
    have := haccepted.1
    simp [hreceived] at this
  obtain ⟨hquiet, hclient, hseed, hstage⟩ := hunvalidated
  simp only [hidle] at hstage
  have hdata : c.authSeed.data order = store .bigEndian seed := by
    rw [hseed, NetworkOrder.data_ofHost]
  -- the send buffer is empty and takes the seed as a whole, so there is no short `send()`
  have hfits : (store .bigEndian seed).length ≤ c.room capacity := by
    rw [length_store, room, hstage]
    exact Nat.le_trans (by decide) hcapacity
  have ht' : t.Allowed (c.room capacity) (store .bigEndian seed).length := by rwa [length_store]
  obtain ⟨socket, result, hsend, hoperation, houtcome⟩ :=
    Outgoing.sendSync_of_fits hconnected hquiet.operation ht' hfits
  rw [hstage, List.nil_append] at houtcome
  simp only [Connection.writeSeed, hdata, hsend]
  match result with
  | some (.ok _) =>
    have hwritten : socket.written = store .bigEndian seed := by
      rcases houtcome with ⟨-, -, h⟩ | ⟨-, h, -⟩
      · exact h
      · exact absurd rfl h
    refine ⟨h.privKey, by simp, ?_, by simp, ?_⟩
    · intro operation hop
      obtain rfl := Stage.readKey.inj hop
      simp only [hreceived]
      exact ReceiveOperation.progress_receiveAsync (by decide)
    · exact .inr ⟨⟨hquiet.validated, hoperation, hquiet.calls⟩, hclient, hseed, hwritten⟩
  | none | some (.error ec) =>
    have hwritten : socket.written = [] := by
      rcases houtcome with ⟨-, h, -⟩ | ⟨-, -, h⟩
      · cases h
      · exact h
    refine ⟨h.privKey, by simp, by simp, by simp, ?_⟩
    refine .inr ⟨⟨hquiet.validated, hoperation, hquiet.calls⟩, hclient, hseed, ?_⟩
    change socket.written <+: _
    rw [hwritten]
    exact List.nil_prefix

/-- A failed handshake sends nothing more. -/
theorem Unvalidated.handleCommunicationError {operation : ReceiveOperation}
    (h : Unvalidated order seed c) (hstage : c.stage = .readKey operation) (ec : SockErrorCode) :
    Unvalidated order seed { c.handleCommunicationError ec with stage := .ended } := by
  obtain ⟨hquiet, hclient, hseed, hwritten⟩ := h
  simp only [hstage] at hwritten
  refine ⟨⟨hquiet.validated, hquiet.operation, hquiet.calls⟩, hclient, hseed, ?_⟩
  exact hwritten ▸ List.prefix_refl c.socket.written

/-- The completion handler of `ReadKey()` validates the connection if and only if it has read the
key. -/
theorem ServerInv.onKey (h : ServerInv order seed c)
    {result : Except SockErrorCode (List UInt8)} (hstage : c.stage = .readKey (.completed result)) :
    ServerInv order seed (c.onKey order result) := by
  have hprogress := h.readKey _ hstage
  -- an error ends the handshake and leaves everything else as it is
  have hended : ∀ ec, (Accepted seed c.received ∨ Unvalidated order seed c) →
      ServerInv order seed { c.handleCommunicationError ec with stage := .ended } := by
    intro ec hguarded
    refine ⟨h.privKey, by simp, by simp, by simp, ?_⟩
    rcases hguarded with haccepted | hunvalidated
    · exact .inl haccepted
    · exact .inr (hunvalidated.handleCommunicationError hstage ec)
  cases hprogress with
  | failed ec => exact hended ec h.guarded
  | completed hlen =>
    -- all eight bytes are there, and the comparison decides
    simp only [Connection.onKey, NetworkOrder.toHost_ofData order hlen]
    split
    · rename_i hkey
      have haccepted : Accepted seed c.received := by
        refine ⟨Nat.le_of_eq hlen.symm, ?_⟩
        rw [List.take_of_length_le (Nat.le_of_eq hlen), hkey, h.privKey]
      exact ServerInv.of_accepted h.privKey trivial haccepted
    · have := hended .connectionAuthenticationFailed h.guarded
      refine ⟨this.privKey, by simp, by simp, by simp, ?_⟩
      rcases this.guarded with haccepted | hunvalidated
      · exact .inl haccepted
      · exact .inr ⟨⟨hunvalidated.quiet.validated, hunvalidated.quiet.operation,
          hunvalidated.quiet.calls⟩, hunvalidated.clientValidated, hunvalidated.authSeed,
          hunvalidated.stage⟩

/-- A step of the reception loop stays in it. -/
theorem receptionStep_eq {r : Reception} {b : ReceptionStep}
    (h : c.receptionStep order r b = some c') :
    ∃ r', c'.stage = .reception r' ∧ c'.received = c.received ∧ c'.privKey = c.privKey ∧
      c'.socket.written = c.socket.written := by
  simp only [receptionStep] at h
  split at h
  · cases h
  · split at h <;>
    · obtain rfl := Option.some.inj h
      exact ⟨_, rfl, rfl, rfl, rfl⟩

/-- Behind the handshake, the server's reception loop keeps the invariant. -/
theorem serverInv_of_receptionStep {r : Reception} {b : ReceptionStep}
    (hkey : c.privKey = computeKey seed) (haccepted : Accepted seed c.received)
    (hstep : c.receptionStep order r b = some c') : ServerInv order seed c' := by
  obtain ⟨r', hstage, hreceived, hkey', -⟩ := receptionStep_eq hstep
  exact ServerInv.of_accepted (hkey'.trans hkey) (by simp [hstage]) (hreceived ▸ haccepted)

/-- Every step keeps the invariant of the server's connection. -/
theorem ServerInv.step (hcapacity : minimalSendBuffer ≤ capacity) (h : ServerInv order seed c)
    (hstep : c.step .kServer order capacity a = some c') : ServerInv order seed c' := by
  -- in a stage behind the handshake, the key was accepted
  have hbehind : (match c.stage with
      | .sendBacklog | .notifyOwner | .startReception | .reception _ => True
      | .idle | .readSeed _ | .readKey _ | .ended => False) → Accepted seed c.received := by
    intro hstage
    refine h.guarded.resolve_right fun hunvalidated => ?_
    have := hunvalidated.stage
    revert this hstage
    cases c.stage <;> simp
  rcases isLocal_or_handshakeStep hstep with ha | hhandshake
  · exact h.of_isLocal hstep ha
  cases hhandshake with
  | initiateHandshake t hidle ht =>
    rw [initiateHandshake]
    split
    · rename_i hconnected
      exact h.writeSeed hcapacity hidle hconnected ht
    · -- the socket was closed before the handshake
      refine ⟨h.privKey, by simp, by simp, by simp, ?_⟩
      rcases h.guarded with haccepted | ⟨hquiet, hclient, hseed, hstage⟩
      · exact .inl haccepted
      · simp only [hidle] at hstage
        refine .inr ⟨⟨hquiet.validated, hquiet.operation, hquiet.calls⟩, hclient, hseed, ?_⟩
        change c.socket.written <+: _
        rw [hstage]
        exact List.nil_prefix
  | recvSeed operation result hstage hresult => exact absurd hstage (h.readSeed operation)
  | recvKey operation result hstage hresult =>
    refine ⟨h.privKey, by simp, ?_, by simp, ?_⟩
    · intro operation' hstage'
      obtain rfl := Stage.readKey.inj hstage'
      exact (h.readKey operation hstage).perform hresult
    · rcases h.guarded with haccepted | ⟨hquiet, hclient, hseed, hwritten⟩
      · exact .inl (haccepted.append _)
      · simp only [hstage] at hwritten
        exact .inr ⟨⟨hquiet.validated, hquiet.operation, hquiet.calls⟩, hclient, hseed, hwritten⟩
  | recvMessage r result hstage hloop =>
    have haccepted := hbehind (by simp [hstage])
    exact serverInv_of_receptionStep (c := { c with received := c.received ++ result.data })
      h.privKey (haccepted.append _) hloop
  | onSeed result t hstage ht => exact absurd hstage (h.readSeed _)
  | onKey result hstage => exact h.onKey hstage
  | goOn r b hstage hloop =>
    exact serverInv_of_receptionStep h.privKey (hbehind (by simp [hstage])) hloop
  | sendBackloggedMessages ts hstage =>
    -- from here on the server may send anything
    have haccepted := hbehind (by simp [hstage])
    simp only [sendBackloggedMessages]
    split
    · exact ServerInv.of_accepted h.privKey trivial haccepted
    · exact ServerInv.of_accepted h.privKey trivial haccepted
  | onClientValidated hstage =>
    exact ServerInv.of_accepted h.privKey trivial (hbehind (by simp [hstage]))
  | receiveMessageHeader hstage =>
    exact ServerInv.of_accepted h.privKey trivial (hbehind (by simp [hstage]))

/-- The invariant holds in every reachable state of the server's connection. -/
theorem serverInv_of_reachable (hc : (server order capacity seed).Reachable c) :
    minimalSendBuffer ≤ capacity ∧ ServerInv order seed c := by
  refine hc.invariant (I := fun c => minimalSendBuffer ≤ capacity ∧ ServerInv order seed c) ?_ ?_
  · rintro c ⟨rfl, hcapacity⟩
    exact ⟨hcapacity, ServerInv.accepted⟩
  · rintro c a c' ⟨hcapacity, hinv⟩ - hstep
    exact ⟨hcapacity, hinv.step hcapacity hstep⟩

/-- Whatever shows that the server takes the peer for a client, the key was received. -/
theorem ServerInv.accepted_of_evidence (h : ServerInv order seed c)
    (hevidence : c.messages ≠ [] ∨ 0 < c.clientValidated ∨
      ¬ c.socket.written <+: store .bigEndian seed) : Accepted seed c.received := by
  -- an unvalidated connection shows none of these
  refine h.guarded.resolve_right ?_
  rintro ⟨-, hclient, -, hstage⟩
  rcases hevidence with hmessages | hvalidated | hwritten
  · rw [messages] at hmessages
    revert hmessages hstage
    cases c.stage <;> simp
  · rw [hclient] at hvalidated
    exact absurd hvalidated (Nat.lt_irrefl 0)
  · revert hstage hwritten
    cases c.stage <;> simp +contextual

/-- The server validates a connection that has received the key. -/
theorem ServerInv.exists_validated (h : ServerInv order seed c)
    (hkey : store .bigEndian (computeKey seed) <+: c.received) {bytes : List UInt8}
    (hstage : c.stage = .readKey (.completed (.ok bytes))) :
    (c.onKey order (.ok bytes)).isConnectionValidated = true ∧
      (c.onKey order (.ok bytes)).connectionErrors = c.connectionErrors := by
  have hprogress := h.readKey _ hstage
  cases hprogress with
  | completed hlen =>
    -- exactly eight bytes are read, so they are the key and nothing else
    have hbytes : c.received = store .bigEndian (computeKey seed) :=
      (hkey.eq_of_length (by rw [length_store, hlen])).symm
    have hequal : load .bigEndian 8 c.received = c.privKey := by
      rw [hbytes, load_store, h.privKey]
    simp [Connection.onKey, NetworkOrder.toHost_ofData order hlen, hequal]

/-! ## The client -/

/-- What the others do adds to what is written. -/
theorem written_isPrefix_postCompletion {sent : Outgoing × Option (Except SockErrorCode Unit)}
    {written : List UInt8} (h : written <+: sent.1.written) :
    written <+: (c.postCompletion sent).socket.written := by
  obtain ⟨socket, _ | result⟩ := sent
  · exact h
  · exact h

theorem written_isPrefix_proceed (outcome : Outcome) (call : Call) :
    c.socket.written <+: (c.proceed identity outcome call).socket.written := by
  cases call with
  | doSendMessage2 message =>
    simp only [proceed]
    split <;> exact List.prefix_refl _
  | doSendNextMessage =>
    exact written_isPrefix_postCompletion (c.socket.written_isPrefix_sendAsync _ _)
  | sendCompleted result =>
    simp only [proceed]
    split
    · split <;> exact List.prefix_refl _
    · exact List.prefix_refl _
  | sendSync message =>
    simp only [proceed]
    split <;> exact List.prefix_refl _
  | saveMessage message | close => exact List.prefix_refl _
  | sendDirectly message =>
    -- the outcomes differ in the handlers that are called, not in what was written
    have hsend := c.socket.written_isPrefix_sendSync message outcome.transmission
    simp only [proceed]
    split
    · exact hsend
    · exact hsend
    · cases identity with
      | kServer => exact hsend
      | kClient =>
        dsimp only
        split <;> exact hsend

theorem written_isPrefix_of_isLocal (hstep : c.step identity order capacity a = some c')
    (ha : a.IsLocal) : c.socket.written <+: c'.socket.written := by
  cases a with
  | initiateHandshake | recv | complete | sendBackloggedMessages | onClientValidated
  | receiveMessageHeader | resume => exact ha.elim
  | send message | sendSync message | close =>
    obtain rfl := Option.some.inj hstep
    exact List.prefix_refl _
  | proceed call outcome =>
    simp only [step] at hstep
    split at hstep
    · obtain rfl := Option.some.inj hstep
      exact written_isPrefix_proceed (c := { c with calls := c.calls.erase call }) outcome call
    · cases hstep
  | perform result =>
    simp only [step] at hstep
    split at hstep
    · cases hstep
    · split at hstep
      · obtain rfl := Option.some.inj hstep
        exact written_isPrefix_postCompletion (c.socket.written_isPrefix_performSend _ _)
      · cases hstep

theorem written_isPrefix_sendBacklogLoop (messages : List (List UInt8)) (socket : Outgoing)
    (ts : List Transmission) :
    socket.written <+: (sendBacklogLoop messages socket ts).1.written := by
  induction messages generalizing socket ts with
  | nil => exact List.prefix_refl _
  | cons message messages ih =>
    cases ts with
    | nil => exact List.prefix_refl _
    | cons t ts =>
      have hsend := socket.written_isPrefix_sendSync message t
      rw [sendBacklogLoop]
      split
      · rename_i heq
        rwa [heq] at hsend
      · rename_i heq
        rw [heq] at hsend
        exact hsend.trans (ih _ _)

/-- The client has received eight bytes, and has sent the key for them before anything else. -/
def KeySent (c : Connection) : Prop :=
  8 ≤ c.received.length ∧
    store .bigEndian (computeKey (load .bigEndian 8 (c.received.take 8))) <+: c.socket.written

theorem KeySent.mono (h : KeySent c) (hreceived : c.received <+: c'.received)
    (hwritten : c.socket.written <+: c'.socket.written) : KeySent c' := by
  obtain ⟨more, hmore⟩ := hreceived
  refine ⟨?_, ?_⟩
  · rw [← hmore, List.length_append]
    exact Nat.le_add_right_of_le h.1
  · rw [← hmore, List.take_append_of_le_length h.1]
    exact h.2.trans hwritten

/-- The invariant of the client's connection. -/
def ClientInv (c : Connection) : Prop :=
  match c.stage with
  | .idle => Quiet c ∧ c.received = [] ∧ c.socket.written = []
  | .readSeed operation => Quiet c ∧ operation.Progress 8 c.received ∧ c.socket.written = []
  | .ended => (Quiet c ∧ c.socket.written = []) ∨ KeySent c
  | .sendBacklog | .startReception | .reception _ => KeySent c
  | .readKey _ | .notifyOwner => False

theorem clientInv_init : ClientInv {} := ⟨⟨rfl, rfl, by simp⟩, rfl, rfl⟩

theorem ClientInv.of_isLocal (h : ClientInv c) (hstep : c.step .kClient order capacity a = some c')
    (ha : a.IsLocal) : ClientInv c' := by
  have hsame := sameHandshake_of_isLocal hstep ha
  have hreceived : c.received <+: c'.received := hsame.received ▸ List.prefix_refl c.received
  -- after the key, the others may send, but only behind it
  have hsent : KeySent c → KeySent c' :=
    fun hkey => hkey.mono hreceived (written_isPrefix_of_isLocal hstep ha)
  rw [ClientInv] at h ⊢
  rw [hsame.stage]
  split at h
  · obtain ⟨hquiet, hnone, hwritten⟩ := h
    obtain ⟨hquiet', hwritten'⟩ := hquiet.of_isLocal hstep ha
    exact ⟨hquiet', hsame.received.trans hnone, hwritten'.trans hwritten⟩
  · obtain ⟨hquiet, hprogress, hwritten⟩ := h
    obtain ⟨hquiet', hwritten'⟩ := hquiet.of_isLocal hstep ha
    exact ⟨hquiet', hsame.received ▸ hprogress, hwritten'.trans hwritten⟩
  · rcases h with ⟨hquiet, hwritten⟩ | hkey
    · obtain ⟨hquiet', hwritten'⟩ := hquiet.of_isLocal hstep ha
      exact .inl ⟨hquiet', hwritten'.trans hwritten⟩
    · exact .inr (hsent hkey)
  · exact hsent h
  · exact hsent h
  · exact hsent h
  · exact h.elim
  · exact h.elim

/-- `WriteKey()` sends the key for the seed that was read, unless the first `send()` fails. -/
theorem writeKey_of_quiet (order : ByteOrder) (hcapacity : minimalSendBuffer ≤ capacity)
    (hquiet : Quiet c)
    (hwritten : c.socket.written = []) (hconnected : c.socket.isConnected = true)
    {t : Transmission} (ht : t.Allowed (c.room capacity) 8) :
    (t.Succeeds ∧ (c.writeKey order t).stage = .sendBacklog ∧
        (c.writeKey order t).isConnectionValidated = true ∧
        (c.writeKey order t).socket.written =
          store .bigEndian (computeKey (c.authSeed.toHost order))) ∨
      (¬ t.Succeeds ∧ (c.writeKey order t).stage = .ended ∧ Quiet (c.writeKey order t) ∧
        (c.writeKey order t).socket.written = []) := by
  -- like the seed, the key is the first thing to be sent and fits into the send buffer
  have hfits : (store .bigEndian (computeKey (c.authSeed.toHost order))).length ≤
      c.room capacity := by
    rw [length_store, room, hwritten]
    exact Nat.le_trans (by decide) hcapacity
  have ht' : t.Allowed (c.room capacity)
      (store .bigEndian (computeKey (c.authSeed.toHost order))).length := by rwa [length_store]
  obtain ⟨socket, result, hsend, hoperation, houtcome⟩ :=
    Outgoing.sendSync_of_fits hconnected hquiet.operation ht' hfits
  rw [hwritten, List.nil_append] at houtcome
  simp only [writeKey, NetworkOrder.data_ofHost, hsend]
  rcases houtcome with ⟨hsucceeds, rfl, hkey⟩ | ⟨hfails, hresult, hnone⟩
  · exact .inl ⟨hsucceeds, rfl, rfl, hkey⟩
  · refine .inr ⟨hfails, ?_⟩
    match result with
    | some (.ok _) => exact absurd rfl hresult
    | none | some (.error ec) =>
      exact ⟨rfl, ⟨hquiet.validated, hoperation, hquiet.calls⟩, hnone⟩

theorem received_writeKey (t : Transmission) : (c.writeKey order t).received = c.received := by
  simp only [writeKey]
  split <;> rfl

/-- The completion handler of `ReadSeed()` sends the key, or nothing. -/
theorem ClientInv.onSeed (hcapacity : minimalSendBuffer ≤ capacity) (h : ClientInv c)
    {result : Except SockErrorCode (List UInt8)} (hstage : c.stage = .readSeed (.completed result))
    {t : Transmission} (ht : t.Allowed (c.room capacity) 8) :
    ClientInv (c.onSeed order result t) := by
  simp only [ClientInv, hstage] at h
  obtain ⟨hquiet, hprogress, hwritten⟩ := h
  have hended : ∀ {d : Connection}, d.stage = .ended → Quiet d → d.socket.written = [] →
      ClientInv d := by
    intro d hd hquiet hwritten
    rw [ClientInv, hd]
    exact .inl ⟨hquiet, hwritten⟩
  cases hprogress with
  | failed ec =>
    exact hended rfl ⟨hquiet.validated, hquiet.operation, hquiet.calls⟩ hwritten
  | completed hlen =>
    rw [Connection.onSeed]
    by_cases hconnected : c.socket.isConnected = true
    · rcases writeKey_of_quiet (c := { c with authSeed := .ofData order c.received }) order
          hcapacity ⟨hquiet.validated, hquiet.operation, hquiet.calls⟩ hwritten hconnected ht with
        ⟨-, hstage', -, hkey⟩ | ⟨-, hstage', hquiet', hnone⟩
      · rw [ClientInv, hstage']
        refine ⟨?_, ?_⟩
        · rw [received_writeKey]
          exact Nat.le_of_eq hlen.symm
        · -- the key is all that was sent
          rw [received_writeKey, List.take_of_length_le (Nat.le_of_eq hlen),
            ← NetworkOrder.toHost_ofData order hlen]
          exact hkey ▸ List.prefix_refl _
      · exact hended hstage' hquiet' hnone
    · -- the socket was closed in the meantime, so `SendSync()` refuses to send
      have hsend : ∀ buf, c.socket.sendSync buf t =
          (c.socket, some (.error .socketNotConnected)) := by
        intro buf
        simp [Outgoing.sendSync, Outgoing.checkSendPossible, hconnected]
      simp only [writeKey, hsend]
      exact hended rfl ⟨hquiet.validated, hquiet.operation, hquiet.calls⟩ hwritten

/-- Once the key is sent, the client's reception loop keeps the invariant. -/
theorem KeySent.receptionStep {r : Reception} {b : ReceptionStep} (h : KeySent c)
    (hstep : c.receptionStep order r b = some c') : ClientInv c' := by
  obtain ⟨r', hstage, hreceived, -, hwritten⟩ := receptionStep_eq hstep
  simp only [ClientInv, hstage]
  exact h.mono (hreceived ▸ List.prefix_refl _) (hwritten ▸ List.prefix_refl _)

/-- Every step keeps the invariant of the client's connection. -/
theorem ClientInv.step (hcapacity : minimalSendBuffer ≤ capacity) (h : ClientInv c)
    (hstep : c.step .kClient order capacity a = some c') : ClientInv c' := by
  rcases isLocal_or_handshakeStep hstep with ha | hhandshake
  · exact h.of_isLocal hstep ha
  cases hhandshake with
  | initiateHandshake t hidle ht =>
    simp only [ClientInv, hidle] at h
    obtain ⟨hquiet, hreceived, hwritten⟩ := h
    rw [initiateHandshake]
    split
    · refine ⟨⟨hquiet.validated, hquiet.operation, hquiet.calls⟩, ?_, hwritten⟩
      change ReceiveOperation.Progress 8 c.received _
      rw [hreceived]
      exact ReceiveOperation.progress_receiveAsync (by decide)
    · exact .inl ⟨⟨hquiet.validated, hquiet.operation, hquiet.calls⟩, hwritten⟩
  | recvSeed operation result hstage hresult =>
    simp only [ClientInv, hstage] at h
    obtain ⟨hquiet, hprogress, hwritten⟩ := h
    exact ⟨⟨hquiet.validated, hquiet.operation, hquiet.calls⟩, hprogress.perform hresult, hwritten⟩
  | recvKey operation result hstage hresult => simp only [ClientInv, hstage] at h
  | recvMessage r result hstage hloop =>
    simp only [ClientInv, hstage] at h
    have hmore : KeySent { c with received := c.received ++ result.data } :=
      h.mono (List.prefix_append _ _) (List.prefix_refl _)
    exact hmore.receptionStep hloop
  | onSeed result t hstage ht => exact h.onSeed hcapacity hstage ht
  | onKey result hstage => simp only [ClientInv, hstage] at h
  | goOn r b hstage hloop =>
    simp only [ClientInv, hstage] at h
    exact h.receptionStep hloop
  | sendBackloggedMessages ts hstage =>
    simp only [ClientInv, hstage] at h
    have hwritten := written_isPrefix_sendBacklogLoop c.outbox c.socket ts
    simp only [sendBackloggedMessages]
    split
    · -- a message of the backlog is still being sent
      rename_i hloop
      rw [hloop] at hwritten
      exact .inr (h.mono (List.prefix_refl _) hwritten)
    · rename_i hloop
      rw [hloop] at hwritten
      exact h.mono (List.prefix_refl _) hwritten
  | onClientValidated hstage => simp only [ClientInv, hstage] at h
  | receiveMessageHeader hstage =>
    simp only [ClientInv, hstage] at h
    exact h.mono (List.prefix_refl _) (List.prefix_refl _)

/-- The invariant holds in every reachable state of the client's connection. -/
theorem clientInv_of_reachable (hc : (client order capacity).Reachable c) :
    minimalSendBuffer ≤ capacity ∧ ClientInv c := by
  refine hc.invariant (I := fun c => minimalSendBuffer ≤ capacity ∧ ClientInv c) ?_ ?_
  · rintro c ⟨rfl, hcapacity⟩
    exact ⟨hcapacity, clientInv_init⟩
  · rintro c a c' ⟨hcapacity, hinv⟩ - hstep
    exact ⟨hcapacity, hinv.step hcapacity hstep⟩

/-- A client that has received the seed has sent nothing but the key first, and its completion
handler of `ReadSeed()` sends the key if the socket lets it. -/
theorem ClientInv.key_sent (order : ByteOrder) (hcapacity : minimalSendBuffer ≤ capacity)
    (h : ClientInv c)
    (hseed : store .bigEndian seed <+: c.received) :
    (c.socket.written ≠ [] → store .bigEndian (computeKey seed) <+: c.socket.written) ∧
      ∀ bytes t, c.stage = .readSeed (.completed (.ok bytes)) → c.socket.isConnected = true →
        t.Allowed (c.room capacity) 8 → t.Succeeds →
        (c.onSeed order (.ok bytes) t).socket.written = store .bigEndian (computeKey seed) ∧
          (c.onSeed order (.ok bytes) t).isConnectionValidated = true := by
  -- the client reads the seed of the server, whatever the byte order of the server
  have hfirst : load .bigEndian 8 (c.received.take 8) = seed := by
    obtain ⟨more, hmore⟩ := hseed
    rw [← hmore, List.take_left' (length_store _ _), load_store]
  refine ⟨?_, ?_⟩
  · intro hwritten
    -- in every stage in which something is written, the key was sent first
    have hkey : KeySent c := by
      rw [ClientInv] at h
      revert h
      cases c.stage <;> simp [hwritten]
    rw [← hfirst]
    exact hkey.2
  · intro bytes t hstage hconnected ht hsucceeds
    simp only [ClientInv, hstage] at h
    obtain ⟨hquiet, hprogress, hwritten⟩ := h
    cases hprogress with
    | completed hlen =>
      rw [List.take_of_length_le (Nat.le_of_eq hlen)] at hfirst
      rw [Connection.onSeed]
      rcases writeKey_of_quiet (c := { c with authSeed := .ofData order c.received }) order
          hcapacity ⟨hquiet.validated, hquiet.operation, hquiet.calls⟩ hwritten hconnected ht with
        ⟨-, -, hvalidated, hkey⟩ | ⟨hfails, -⟩
      · rw [NetworkOrder.toHost_ofData order hlen, hfirst] at hkey
        exact ⟨hkey, hvalidated⟩
      · exact absurd hsucceeds hfails

/-! ## Main result -/

/-- In every run of a server's connection, a message is handed over, `OnClientValidated()` is called
and a byte other than those of the seed is sent only if the first eight bytes received, read in
network order, are the key for the seed.

Conversely, for every seed there is a key such that a client that has received the seed of a server
sends this key before anything else, and has done so when the completion handler of `ReadSeed()`
returns unless its socket is closed or reports an error. A server with this seed that has received
the key validates the connection. The two ends may have different byte orders. -/
theorem handshake :
    (∀ (order : ByteOrder) (capacity : ℕ) (seed : BitVec (8 * 8)) (s : Connection),
      (server order capacity seed).Reachable s →
      (s.messages ≠ [] ∨ 0 < s.clientValidated ∨
        ¬ s.socket.written <+: (NetworkOrder.ofHost order seed : NetworkOrder 8).data order) →
      8 ≤ s.received.length ∧ load .bigEndian 8 (s.received.take 8) = computeKey seed) ∧
    ∀ (serverOrder clientOrder : ByteOrder) (serverCapacity clientCapacity : ℕ)
      (seed : BitVec (8 * 8)), ∃ key : List UInt8,
      (∀ c, (client clientOrder clientCapacity).Reachable c →
        (NetworkOrder.ofHost serverOrder seed : NetworkOrder 8).data serverOrder <+: c.received →
        (c.socket.written ≠ [] → key <+: c.socket.written) ∧
        ∀ bytes t, c.stage = .readSeed (.completed (.ok bytes)) → c.socket.isConnected = true →
          t.Allowed (c.room clientCapacity) 8 → t.Succeeds →
          ∃ c', (client clientOrder clientCapacity).step c (.complete t) = some c' ∧
            c'.socket.written = key ∧ c'.isConnectionValidated = true) ∧
      ∀ s, (server serverOrder serverCapacity seed).Reachable s → key <+: s.received →
        ∀ bytes t, s.stage = .readKey (.completed (.ok bytes)) →
          t.Allowed (s.room serverCapacity) 8 →
          ∃ s', (server serverOrder serverCapacity seed).step s (.complete t) = some s' ∧
            s'.isConnectionValidated = true ∧ s'.connectionErrors = s.connectionErrors := by
  refine ⟨?_, ?_⟩
  · intro order capacity seed s hs hevidence
    rw [NetworkOrder.data_ofHost] at hevidence
    exact (serverInv_of_reachable hs).2.accepted_of_evidence hevidence
  · intro serverOrder clientOrder serverCapacity clientCapacity seed
    -- the key is sent in network order, whatever the byte order of the client
    refine ⟨store .bigEndian (computeKey seed), ?_, ?_⟩
    · intro c hc hseed
      rw [NetworkOrder.data_ofHost] at hseed
      obtain ⟨hcapacity, hinv⟩ := clientInv_of_reachable hc
      obtain ⟨hsent, hhandler⟩ := hinv.key_sent clientOrder hcapacity hseed
      refine ⟨hsent, ?_⟩
      intro bytes t hstage hconnected ht hsucceeds
      refine ⟨c.onSeed clientOrder (.ok bytes) t, ?_,
        hhandler bytes t hstage hconnected ht hsucceeds⟩
      simp only [client, step, ht, if_true, complete, hstage]
    · intro s hs hkey bytes t hstage ht
      have hinv := (serverInv_of_reachable hs).2
      refine ⟨s.onKey serverOrder (.ok bytes), ?_, hinv.exists_validated hkey hstage⟩
      simp only [server, step, ht, if_true, complete, hstage]

/-- A little-endian server sends the seed `1` while a message is already in its outbox. It receives
the key in two pieces, sends the message and receives one. -/
theorem handshake_little_endian_server :
    ∃ s, (server .littleEndian 4096 1).Reachable s ∧ s.messages.length = 1 ∧ s.clientValidated = 1 ∧
      s.socket.written = [0, 0, 0, 0, 0, 0, 0, 1, 7, 7] ∧
      load .bigEndian 8 (s.received.take 8) = computeKey 1 := by
  have hs := Machine.reachableIn_get_run (M := server .littleEndian 4096 1) (C := Machine.Always)
    (l := [.send [7, 7], .initiateHandshake { results := [.bytes 8] },
      .proceed (.doSendMessage2 [7, 7]) {}, .recv (.bytes [0, 0, 0, 0, 0x17]), .recv .busy,
      .recv (.bytes [0x14, 0x8d, 0x88]), .complete { results := [] },
      .sendBackloggedMessages [{ results := [.bytes 2] }], .onClientValidated,
      .receiveMessageHeader,
      .recv (.bytes [1, 0, 0, 0, 0]), .complete { results := [] }])
    ⟨rfl, by decide⟩ (by decide)
  refine ⟨_, hs, by decide, by decide, by decide, ?_⟩
  exact (handshake.1 _ _ _ _ hs (.inr (.inl (by decide)))).2

end Connection

end Asrt.ClientServer
