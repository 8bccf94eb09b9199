import Asrt.ClientServer.ConnectionSteps

/-!
# The two ends of a connection

`link` is a server's connection and a client's connection side by side. The kernel carries what each
end writes to the other one, in order and in any pieces. The steps of the two ends interleave in any
way, `Send()`, `SendSync()` and `Close()` may be called at either end at any time, the kernel may
report errors and the end of the stream, and the two hosts may have different byte orders.

## Main results

- `link_agreement`: the server never takes the client for anybody else, and when it has validated
  the connection, the client has done so before, for the seed of the server.
- `link_completes`: from every state in which neither end was closed or has failed, the handshake
  can be completed.
-/

namespace Asrt.ClientServer

open ToMathlib Socket.ByteStream

namespace Connection

variable {order : ByteOrder} {capacity : ℕ} {c c' : Connection} {a : Action}

/-! ## What the server has sent -/

variable {seed : BitVec (8 * 8)}

theorem Unvalidated.of_isLocal (h : Unvalidated order seed c)
    (hstep : c.step .kServer order capacity a = some c') (ha : a.IsLocal) :
    Unvalidated order seed c' := by
  have hsame := sameHandshake_of_isLocal hstep ha
  obtain ⟨hquiet, hwritten⟩ := h.quiet.of_isLocal hstep ha
  refine ⟨hquiet, hsame.clientValidated.trans h.clientValidated,
    hsame.authSeed.trans h.authSeed, ?_⟩
  rw [hsame.stage, hwritten]
  exact h.stage

/-- The server writes the seed first: it is still unvalidated, or the seed is written. -/
def SeedFirst (order : ByteOrder) (seed : BitVec (8 * 8)) (c : Connection) : Prop :=
  Unvalidated order seed c ∨ store .bigEndian seed <+: c.socket.written

theorem SeedFirst.step (hcapacity : minimalSendBuffer ≤ capacity) (hinv : ServerInv order seed c)
    (h : SeedFirst order seed c) (hstep : c.step .kServer order capacity a = some c') :
    SeedFirst order seed c' := by
  have hwritten := written_isPrefix_of_step hstep
  rcases h with hunvalidated | hseed
  · rcases isLocal_or_handshakeStep hstep with ha | hhandshake
    · exact .inl (hunvalidated.of_isLocal hstep ha)
    have hstage := hunvalidated.stage
    have hnext := (hinv.step hcapacity hstep).guarded
    cases hhandshake with
    | initiateHandshake t hidle ht =>
      -- nothing is received in this step, so the key is not accepted
      refine .inl (hnext.resolve_left fun haccepted => ?_)
      have hlen := haccepted.1
      rw [received_initiateHandshake, hinv.idle hidle] at hlen
      exact absurd hlen (by decide)
    | recvKey operation result heq hresult =>
      rw [heq] at hstage
      exact .inr (hstage ▸ hwritten)
    | onKey result heq =>
      rw [heq] at hstage
      exact .inr (hstage ▸ hwritten)
    | recvSeed operation result heq | recvMessage r result heq | onSeed result t heq
    | goOn r b heq | sendBackloggedMessages ts heq | onClientValidated heq
    | receiveMessageHeader heq =>
      rw [heq] at hstage
      exact hstage.elim
  · exact .inr (hseed.trans hwritten)

/-- Eight bytes that the server has written first are the seed. -/
theorem SeedFirst.load_eq (h : SeedFirst order seed c) {bytes : List UInt8}
    (hbytes : bytes <+: c.socket.written) (hlen : 8 ≤ bytes.length) :
    load .bigEndian 8 (bytes.take 8) = seed := by
  have htake : bytes.take 8 <+: c.socket.written := (List.take_prefix _ _).trans hbytes
  have htakeLen : (bytes.take 8).length = (store .bigEndian seed).length := by
    rw [length_store, List.length_take_of_le hlen]
  have hshort : c.socket.written <+: store .bigEndian seed →
      bytes.take 8 = store .bigEndian seed := by
    intro hwritten
    exact (htake.trans hwritten).eq_of_length htakeLen
  have hfirst : bytes.take 8 = store .bigEndian seed := by
    rcases h with hunvalidated | hseed
    · have hstage := hunvalidated.stage
      split at hstage
      · exact hshort (hstage ▸ List.nil_prefix)
      · exact hshort (hstage ▸ List.prefix_refl _)
      · exact hshort hstage
      all_goals exact hstage.elim
    · have hle := Nat.le_of_eq htakeLen
      exact (List.prefix_of_prefix_length_le htake hseed hle).eq_of_length htakeLen
  rw [hfirst, load_store]

/-! ## What the client has sent -/

/-- The client has sent the key, or has sent nothing and is quiet. -/
theorem ClientInv.keySent_or_quiet (h : ClientInv c) :
    KeySent c ∨ (Quiet c ∧ c.socket.written = []) := by
  rw [ClientInv] at h
  split at h
  · exact .inr ⟨h.1, h.2.2⟩
  · exact .inr ⟨h.1, h.2.2⟩
  · exact h.symm
  · exact .inl h
  · exact .inl h
  · exact .inl h
  · exact h.elim
  · exact h.elim

theorem KeySent.written_ne_nil (h : KeySent c) : c.socket.written ≠ [] := by
  intro hnil
  have hlen := h.2.length_le
  rw [hnil, length_store] at hlen
  exact absurd hlen (by decide)

/-- A client that has sent the key is validated, for the seed that it has received. -/
def ClientAgrees (order : ByteOrder) (c : Connection) : Prop :=
  KeySent c → c.isConnectionValidated = true ∧
    c.authSeed.toHost order = load .bigEndian 8 (c.received.take 8)

theorem ClientAgrees.of_written_nil (h : c.socket.written = []) : ClientAgrees order c :=
  fun hkey => absurd h hkey.written_ne_nil

/-- Receiving more does not change what the client agrees on. -/
theorem ClientAgrees.mono (h : ClientAgrees order c) (hkey : KeySent c)
    (hvalidated : c'.isConnectionValidated = c.isConnectionValidated)
    (hseed : c'.authSeed = c.authSeed) (hreceived : c.received <+: c'.received) :
    ClientAgrees order c' := by
  obtain ⟨hold, hload⟩ := h hkey
  obtain ⟨more, hmore⟩ := hreceived
  intro _
  refine ⟨hvalidated.trans hold, ?_⟩
  rw [hseed, hload, ← hmore, List.take_append_of_le_length hkey.1]

theorem authSeed_writeKey (t : Transmission) : (c.writeKey order t).authSeed = c.authSeed := by
  simp only [writeKey]
  split <;> rfl

theorem ClientAgrees.onSeed (hcapacity : minimalSendBuffer ≤ capacity) (hinv : ClientInv c)
    {result : Except SockErrorCode (List UInt8)} (hstage : c.stage = .readSeed (.completed result))
    {t : Transmission} (ht : t.Allowed (c.room capacity) 8) :
    ClientAgrees order (c.onSeed order result t) := by
  simp only [ClientInv, hstage] at hinv
  obtain ⟨hquiet, hprogress, hwritten⟩ := hinv
  cases hprogress with
  | failed ec => exact .of_written_nil hwritten
  | completed hlen =>
    rw [Connection.onSeed]
    by_cases hconnected : c.socket.isConnected = true
    · rcases writeKey_of_quiet (c := { c with authSeed := .ofData order c.received }) order
          hcapacity ⟨hquiet.validated, hquiet.operation, hquiet.calls⟩ hwritten hconnected ht with
        ⟨-, -, hvalidated, -⟩ | ⟨-, -, -, hnone⟩
      · intro _
        refine ⟨hvalidated, ?_⟩
        rw [authSeed_writeKey, received_writeKey, List.take_of_length_le (Nat.le_of_eq hlen)]
        exact NetworkOrder.toHost_ofData order hlen
      · exact .of_written_nil hnone
    · have hsend : ∀ buf, c.socket.sendSync buf t =
          (c.socket, some (.error .socketNotConnected)) := by
        intro buf
        simp [Outgoing.sendSync, Outgoing.checkSendPossible, hconnected]
      simp only [writeKey, hsend]
      exact .of_written_nil hwritten

theorem ClientAgrees.step (hcapacity : minimalSendBuffer ≤ capacity) (hinv : ClientInv c)
    (h : ClientAgrees order c) (hstep : c.step .kClient order capacity a = some c') :
    ClientAgrees order c' := by
  have hreceived : c.received <+: c'.received := ⟨a.data, (received_of_step hstep).symm⟩
  rcases isLocal_or_handshakeStep hstep with ha | hhandshake
  · have hsame := sameHandshake_of_isLocal hstep ha
    rcases hinv.keySent_or_quiet with hkey | ⟨hquiet, hwritten⟩
    · exact h.mono hkey hsame.validated hsame.authSeed hreceived
    · exact .of_written_nil ((hquiet.of_isLocal hstep ha).2.trans hwritten)
  cases hhandshake with
  | initiateHandshake t hidle ht =>
    simp only [ClientInv, hidle] at hinv
    refine .of_written_nil ?_
    rw [initiateHandshake]
    split <;> exact hinv.2.2
  | recvSeed operation result hstage hresult =>
    simp only [ClientInv, hstage] at hinv
    exact .of_written_nil hinv.2.2
  | recvMessage r result hstage hloop =>
    simp only [ClientInv, hstage] at hinv
    obtain ⟨hvalidated, hseed⟩ := receptionStep_agrees hloop
    exact h.mono hinv hvalidated hseed hreceived
  | goOn r b hstage hloop =>
    simp only [ClientInv, hstage] at hinv
    obtain ⟨hvalidated, hseed⟩ := receptionStep_agrees hloop
    exact h.mono hinv hvalidated hseed hreceived
  | onSeed result t hstage ht => exact .onSeed hcapacity hinv hstage ht
  | sendBackloggedMessages ts hstage =>
    simp only [ClientInv, hstage] at hinv
    refine h.mono hinv ?_ ?_ hreceived
    · simp only [sendBackloggedMessages]
      split <;> rfl
    · simp only [sendBackloggedMessages]
      split <;> rfl
  | receiveMessageHeader hstage =>
    simp only [ClientInv, hstage] at hinv
    exact h.mono hinv rfl rfl hreceived
  | recvKey operation result hstage | onKey result hstage | onClientValidated hstage =>
    simp only [ClientInv, hstage] at hinv

/-! ## Both ends -/

/-- The bytes that a step takes are what the peer has written behind those taken before. -/
def Carried (s : Connection × Connection) : Action ⊕ Action → Prop
  | .inl a => a.data = [] ∨ s.1.received ++ a.data <+: s.2.socket.written
  | .inr a => a.data = [] ∨ s.2.received ++ a.data <+: s.1.socket.written

instance (s : Connection × Connection) : (a : Action ⊕ Action) → Decidable (Carried s a)
  | .inl _ => inferInstanceAs (Decidable (_ ∨ _))
  | .inr _ => inferInstanceAs (Decidable (_ ∨ _))

variable {serverOrder clientOrder : ByteOrder} {serverCapacity clientCapacity : ℕ}
  {s s' : Connection × Connection}

/-- The server's connection and the client's connection. -/
def link (serverOrder clientOrder : ByteOrder) (serverCapacity clientCapacity : ℕ)
    (seed : BitVec (8 * 8)) : Machine (Connection × Connection) (Action ⊕ Action) :=
  (server serverOrder serverCapacity seed).beside (client clientOrder clientCapacity)

/-- The invariant of the link. -/
structure LinkInv (serverOrder clientOrder : ByteOrder) (seed : BitVec (8 * 8))
    (s : Connection × Connection) : Prop where
  server : ServerInv serverOrder seed s.1
  client : ClientInv s.2
  /-- Everything that was received was sent. -/
  toServer : s.1.received <+: s.2.socket.written
  toClient : s.2.received <+: s.1.socket.written
  seedFirst : SeedFirst serverOrder seed s.1
  validated : ValidatedBehind s.1
  agrees : ClientAgrees clientOrder s.2
  notRejected : NotRejected s.1

theorem LinkInv.init :
    LinkInv serverOrder clientOrder seed (Connection.accepted serverOrder seed, {}) where
  server := ServerInv.accepted
  client := clientInv_init
  toServer := List.nil_prefix
  toClient := List.nil_prefix
  seedFirst := by
    refine .inl (ServerInv.accepted.guarded.resolve_left fun h => ?_)
    exact absurd h.1 (by simp [Connection.accepted])
  validated := trivial
  agrees := .of_written_nil rfl
  notRejected := ⟨by simp [Connection.accepted], by simp [Connection.accepted], trivial⟩

/-- A client that has sent anything has the seed of the server, and has sent the key for it. -/
theorem LinkInv.key_written (h : LinkInv serverOrder clientOrder seed s)
    (hwritten : s.2.socket.written ≠ []) :
    s.2.isConnectionValidated = true ∧ s.2.authSeed.toHost clientOrder = seed ∧
      store .bigEndian (computeKey seed) <+: s.2.socket.written := by
  have hkey : KeySent s.2 := h.client.keySent_or_quiet.resolve_right fun hquiet => hwritten hquiet.2
  obtain ⟨hvalidated, hload⟩ := h.agrees hkey
  have hseed := h.seedFirst.load_eq h.toClient hkey.1
  refine ⟨hvalidated, hload.trans hseed, ?_⟩
  rw [← hseed]
  exact hkey.2

/-- What the server has received starts with the key. -/
theorem LinkInv.key_received (h : LinkInv serverOrder clientOrder seed s)
    (hlen : 8 ≤ s.1.received.length) :
    store .bigEndian (computeKey seed) <+: s.1.received := by
  have hwritten : s.2.socket.written ≠ [] := by
    intro hnil
    have hnone := h.toServer
    rw [hnil, List.prefix_nil] at hnone
    rw [hnone] at hlen
    exact absurd hlen (by decide)
  refine List.prefix_of_prefix_length_le (h.key_written hwritten).2.2 h.toServer ?_
  rwa [length_store]

/-- The server finds the key that it expects. -/
theorem LinkInv.toHost_key (h : LinkInv serverOrder clientOrder seed s) {bytes : List UInt8}
    (hstage : s.1.stage = .readKey (.completed (.ok bytes))) :
    (NetworkOrder.ofData serverOrder bytes : NetworkOrder 8).toHost serverOrder = s.1.privKey := by
  have hprogress := h.server.readKey _ hstage
  cases hprogress with
  | completed hlen =>
    have hkey := (h.key_received (Nat.le_of_eq hlen.symm)).eq_of_length (by rw [length_store, hlen])
    rw [NetworkOrder.toHost_ofData serverOrder hlen, ← hkey, load_store, h.server.privKey]

/-- Every step of one of the ends keeps the invariant of the link. -/
theorem LinkInv.step (hserver : minimalSendBuffer ≤ serverCapacity)
    (hclient : minimalSendBuffer ≤ clientCapacity) (h : LinkInv serverOrder clientOrder seed s)
    {a : Action ⊕ Action} (hcarried : Carried s a)
    (hstep : (link serverOrder clientOrder serverCapacity clientCapacity seed).step s a = some s') :
    LinkInv serverOrder clientOrder seed s' := by
  rcases Machine.beside_cases hstep with ⟨a, rfl, hleft, hright⟩ | ⟨a, rfl, hright, hleft⟩
  · have hreceived : s'.1.received <+: s.2.socket.written := by
      rw [received_of_step hleft]
      rcases hcarried with hnone | hsome
      · rw [hnone, List.append_nil]
        exact h.toServer
      · exact hsome
    exact
      { server := h.server.step hserver hleft
        client := hright ▸ h.client
        toServer := hright ▸ hreceived
        toClient := hright ▸ h.toClient.trans (written_isPrefix_of_step hleft)
        seedFirst := h.seedFirst.step hserver h.server hleft
        validated := h.validated.step hleft
        agrees := hright ▸ h.agrees
        notRejected := h.notRejected.step hleft fun bytes => h.toHost_key }
  · have hreceived : s'.2.received <+: s.1.socket.written := by
      rw [received_of_step hright]
      rcases hcarried with hnone | hsome
      · rw [hnone, List.append_nil]
        exact h.toClient
      · exact hsome
    exact
      { server := hleft ▸ h.server
        client := h.client.step hclient hright
        toServer := hleft ▸ h.toServer.trans (written_isPrefix_of_step hright)
        toClient := hleft ▸ hreceived
        seedFirst := hleft ▸ h.seedFirst
        validated := hleft ▸ h.validated
        agrees := h.agrees.step hclient h.client hright
        notRejected := hleft ▸ h.notRejected }

theorem linkInv_of_reachable
    (hs : (link serverOrder clientOrder serverCapacity clientCapacity seed).ReachableIn Carried s) :
    minimalSendBuffer ≤ serverCapacity ∧ minimalSendBuffer ≤ clientCapacity ∧
      LinkInv serverOrder clientOrder seed s := by
  refine hs.invariant (I := fun s => minimalSendBuffer ≤ serverCapacity ∧
    minimalSendBuffer ≤ clientCapacity ∧ LinkInv serverOrder clientOrder seed s) ?_ ?_
  · rintro ⟨s, c⟩ ⟨⟨rfl, hserver⟩, rfl, hclient⟩
    exact ⟨hserver, hclient, LinkInv.init⟩
  · rintro s a s' ⟨hserver, hclient, h⟩ hcarried hstep
    exact ⟨hserver, hclient, h.step hserver hclient hcarried hstep⟩

/-- In every run of the two ends, whatever their byte orders, their calls and the errors of the
kernel, the server does not report an authentication failure. If it has validated the connection,
has handed over a message or has called `OnClientValidated()`, the client has validated the
connection too, with the seed of the server, and what the server has received starts with the
key. -/
theorem link_agreement
    (hs : (link serverOrder clientOrder serverCapacity clientCapacity seed).ReachableIn Carried s) :
    .connectionAuthenticationFailed ∉ s.1.connectionErrors ∧
      (s.1.isConnectionValidated = true ∨ s.1.messages ≠ [] ∨ 0 < s.1.clientValidated →
        s.2.isConnectionValidated = true ∧ s.2.authSeed.toHost clientOrder = seed ∧
          store .bigEndian (computeKey seed) <+: s.1.received) := by
  obtain ⟨-, -, h⟩ := linkInv_of_reachable hs
  refine ⟨h.notRejected.errors, ?_⟩
  intro hevidence
  have haccepted : Accepted seed s.1.received := by
    rcases hevidence with hvalidated | hmessages | hclient
    · refine h.server.guarded.resolve_right fun hunvalidated => ?_
      rw [hunvalidated.quiet.validated] at hvalidated
      cases hvalidated
    · exact h.server.accepted_of_evidence (.inl hmessages)
    · exact h.server.accepted_of_evidence (.inr (.inl hclient))
  -- the client has sent at least the eight bytes of the key
  have hwritten : s.2.socket.written ≠ [] := by
    intro hnil
    have hlen := h.toServer.length_le
    rw [hnil] at hlen
    exact absurd (Nat.le_trans haccepted.1 hlen) (by decide)
  obtain ⟨hvalidated, hseed, -⟩ := h.key_written hwritten
  exact ⟨hvalidated, hseed, h.key_received haccepted.1⟩

/-- The ends have different byte orders, the seed arrives in two pieces, and both ends are asked to
send a message before the handshake. -/
theorem link_agreement_two_orders :
    ∃ s, (link .littleEndian .bigEndian 4096 4096 1).ReachableIn Carried s ∧
      s.1.clientValidated = 1 ∧ s.2.isConnectionValidated = true ∧
      s.2.authSeed.toHost .bigEndian = 1 := by
  have hs := Machine.reachableIn_get_run
    (M := link .littleEndian .bigEndian 4096 4096 1) (C := Carried)
    (l := [.inl (.send [7]), .inr (.sendSync [9]), .inl (.proceed (.doSendMessage2 [7]) {}),
      .inr (.initiateHandshake { results := [] }),
      .inl (.initiateHandshake { results := [.bytes 8] }),
      .inr (.recv (.bytes [0, 0, 0])), .inr (.recv (.bytes [0, 0, 0, 0, 1])),
      .inr (.proceed (.sendSync [9]) {}), .inr (.complete { results := [.bytes 8] }),
      .inl (.recv (.bytes [0, 0, 0, 0, 0x17, 0x14, 0x8d, 0x88])),
      .inl (.complete { results := [] }),
      .inl (.sendBackloggedMessages [{ results := [.bytes 1] }]), .inl .onClientValidated])
    (s := (Connection.accepted .littleEndian 1, {})) ⟨⟨rfl, by decide⟩, rfl, by decide⟩ (by decide)
  obtain ⟨hvalidated, hseed, -⟩ := (link_agreement hs).2 (.inr (.inr (by decide)))
  exact ⟨_, hs, by decide, hvalidated, hseed⟩

/-! ## The handshake can be completed -/

/-- The socket is open and the handshake has not ended with an error. -/
def Alive (c : Connection) : Prop :=
  c.socket.isConnected = true ∧
    match c.stage with
    | .ended | .readSeed (.completed (.error _)) | .readKey (.completed (.error _)) => False
    | .idle | .readSeed (.ongoing _ _) | .readKey (.ongoing _ _) | .readSeed (.completed (.ok _))
    | .readKey (.completed (.ok _)) | .sendBacklog | .notifyOwner | .startReception
    | .reception _ => True

/-- The number of steps that are left of the handshake. -/
def remaining (c : Connection) : ℕ :=
  match c.stage with
  | .idle => 3
  | .readSeed (.ongoing _ _) | .readKey (.ongoing _ _) => 2
  | .readSeed (.completed _) | .readKey (.completed _) => 1
  | .sendBacklog | .notifyOwner | .startReception | .reception _ | .ended => 0

/-- A `send()` that takes the seed or the key. -/
def eightBytes : Transmission := { results := [.bytes 8] }

theorem eightBytes_allowed (room : ℕ) : eightBytes.Allowed room 8 := by
  refine ⟨?_, by simp [eightBytes]⟩
  rintro result ⟨⟩
  exact ⟨Nat.le_refl 8, fun _ => rfl⟩

/-- `SendSync()` on a quiet connection that takes the whole buffer. -/
theorem sendSync_eightBytes {o : Outgoing} {buf : List UInt8} (hconnected : o.isConnected = true)
    (hidle : o.sendOperation = none) (hlen : buf.length = 8) :
    o.sendSync buf eightBytes = ({ o with written := o.written ++ buf }, some (.ok ())) := by
  have hsend := sendAll_whole buf [] fun _ => 0
  rw [hlen] at hsend
  simp [Outgoing.sendSync, Outgoing.checkSendPossible, hconnected, hidle, eightBytes, hsend]

/-- A receive of eight bytes is completed by those that are missing. -/
theorem perform_rest {received bytes : List UInt8} (hlen : bytes.length = 8)
    (hpart : received <+: bytes) :
    (ReceiveOperation.ongoing 8 received).Receives (.bytes (bytes.drop received.length)) ∧
      (ReceiveOperation.ongoing 8 received).perform (.bytes (bytes.drop received.length)) =
        .completed (.ok bytes) ∧ received ++ bytes.drop received.length = bytes := by
  have happend : received ++ bytes.drop received.length = bytes :=
    List.prefix_iff_eq_append.mp hpart
  have hrest : (bytes.drop received.length).length = 8 - received.length := by
    rw [List.length_drop, hlen]
  refine ⟨?_, ?_, happend⟩
  · exact Nat.le_of_eq hrest
  · rw [ReceiveOperation.perform, if_pos hrest, happend]

/-- The steps that nobody calls for. -/
def Uncalled : Action ⊕ Action → Prop
  | .inl a | .inr a => ¬ a.IsLocal

/-- There is a step of the handshake that brings it forward without an error. -/
def Advances (serverOrder clientOrder : ByteOrder) (serverCapacity clientCapacity : ℕ)
    (seed : BitVec (8 * 8)) (s : Connection × Connection) : Prop :=
  ∃ a s', (link serverOrder clientOrder serverCapacity clientCapacity seed).step s a = some s' ∧
    Carried s a ∧ Uncalled a ∧ (Alive s'.1 ∧ Alive s'.2) ∧
    (s'.1.connectionErrors = s.1.connectionErrors ∧
      s'.2.connectionErrors = s.2.connectionErrors) ∧
    remaining s'.1 + remaining s'.2 < remaining s.1 + remaining s.2

/-- A step of the server that brings its side forward. -/
theorem advances_server {a : Action} {d : Connection}
    (hstep : s.1.step .kServer serverOrder serverCapacity a = some d) (ha : ¬ a.IsLocal)
    (hcarried : Carried s (.inl a)) (hserver : Alive d) (hclient : Alive s.2)
    (herrors : d.connectionErrors = s.1.connectionErrors) (hless : remaining d < remaining s.1) :
    Advances serverOrder clientOrder serverCapacity clientCapacity seed s := by
  refine ⟨.inl a, (d, s.2), ?_, hcarried, ha, ⟨hserver, hclient⟩, ⟨herrors, rfl⟩,
    Nat.add_lt_add_right hless _⟩
  exact Option.map_eq_some_iff.mpr ⟨d, hstep, rfl⟩

/-- A step of the client that brings its side forward. -/
theorem advances_client {a : Action} {d : Connection}
    (hstep : s.2.step .kClient clientOrder clientCapacity a = some d) (ha : ¬ a.IsLocal)
    (hcarried : Carried s (.inr a)) (hserver : Alive s.1) (hclient : Alive d)
    (herrors : d.connectionErrors = s.2.connectionErrors) (hless : remaining d < remaining s.2) :
    Advances serverOrder clientOrder serverCapacity clientCapacity seed s := by
  refine ⟨.inr a, (s.1, d), ?_, hcarried, ha, ⟨hserver, hclient⟩, ⟨rfl, herrors⟩,
    Nat.add_lt_add_left hless _⟩
  exact Option.map_eq_some_iff.mpr ⟨d, hstep, rfl⟩

/-- An idle server sends the seed. -/
theorem LinkInv.advances_idle (h : LinkInv serverOrder clientOrder seed s) (hserver : Alive s.1)
    (hclient : Alive s.2) (hidle : s.1.stage = .idle) :
    Advances serverOrder clientOrder serverCapacity clientCapacity seed s := by
  have hunvalidated : Unvalidated serverOrder seed s.1 := by
    refine h.server.guarded.resolve_left fun haccepted => ?_
    have hlen := haccepted.1
    rw [h.server.idle hidle] at hlen
    exact absurd hlen (by decide)
  have hdata : (s.1.authSeed.data serverOrder).length = 8 := by
    rw [hunvalidated.authSeed, NetworkOrder.data_ofHost, length_store]
  have hsend := sendSync_eightBytes hserver.1 hunvalidated.quiet.operation hdata
  refine advances_server (a := .initiateHandshake eightBytes)
    (d := { s.1 with
      socket := { s.1.socket with
        written := s.1.socket.written ++ s.1.authSeed.data serverOrder }
      stage := .readKey (.receiveAsync 8) }) ?_ not_false (.inl rfl) ?_ hclient rfl ?_
  · simp only [Connection.step, hidle, if_pos (eightBytes_allowed _), initiateHandshake,
      if_pos hserver.1, writeSeed, hsend]
  · exact ⟨hserver.1, trivial⟩
  · simp only [remaining, hidle]
    exact (by decide : 2 < 3)

/-- Once the server has left `idle`, the seed is written. -/
theorem LinkInv.seed_written (h : LinkInv serverOrder clientOrder seed s) (hserver : Alive s.1)
    (hidle : s.1.stage ≠ .idle) : store .bigEndian seed <+: s.1.socket.written := by
  rcases h.seedFirst with hunvalidated | hseed
  · have hstage := hunvalidated.stage
    have halive := hserver.2
    revert hstage halive hidle
    cases s.1.stage <;> simp +contextual
  · exact hseed

/-- A client that has completed its side has sent the key. -/
theorem LinkInv.key_written_of_remaining (h : LinkInv serverOrder clientOrder seed s)
    (hclient : Alive s.2) (hdone : remaining s.2 = 0) :
    s.2.isConnectionValidated = true ∧
      store .bigEndian (computeKey seed) <+: s.2.socket.written := by
  have hkey : KeySent s.2 := by
    have hinv := h.client
    have halive := hclient.2
    rw [ClientInv] at hinv
    rw [remaining] at hdone
    split at hdone
    all_goals simp_all
  obtain ⟨hvalidated, -, hwritten⟩ := h.key_written hkey.written_ne_nil
  exact ⟨hvalidated, hwritten⟩

/-- A client takes the missing bytes of the seed, and sends the key when it has all of them. -/
theorem LinkInv.advances_client (h : LinkInv serverOrder clientOrder seed s) (hserver : Alive s.1)
    (hclient : Alive s.2) (hidle : s.1.stage ≠ .idle) (hmore : remaining s.2 ≠ 0) :
    Advances serverOrder clientOrder serverCapacity clientCapacity seed s := by
  have hseed := h.seed_written hserver hidle
  have hinv := h.client
  have halive := hclient.2
  match hstage : s.2.stage with
  | .idle =>
    refine Connection.advances_client (a := .initiateHandshake eightBytes)
      (d := { s.2 with stage := .readSeed (.receiveAsync 8) }) ?_ not_false (.inl rfl) hserver ?_
      rfl ?_
    · simp only [Connection.step, hstage, if_pos (eightBytes_allowed _), initiateHandshake,
        if_pos hclient.1]
    · exact ⟨hclient.1, trivial⟩
    · simp only [remaining, hstage]
      exact (by decide : 2 < 3)
  | .readSeed (.ongoing size filled) =>
    simp only [ClientInv, hstage] at hinv
    obtain ⟨-, hprogress, -⟩ := hinv
    cases hprogress with
    | ongoing hless =>
      have hpart : s.2.received <+: store .bigEndian seed :=
        List.prefix_of_prefix_length_le h.toClient hseed
          (by rw [length_store]; exact Nat.le_of_lt hless)
      obtain ⟨hreceives, hperform, hall⟩ := perform_rest (length_store _ seed) hpart
      refine Connection.advances_client
        (a := .recv (.bytes ((store .bigEndian seed).drop s.2.received.length)))
        (d := { s.2 with
          received := store .bigEndian seed
          stage := .readSeed (.completed (.ok (store .bigEndian seed))) })
        ?_ not_false (.inr (hall.symm ▸ hseed)) hserver ?_ rfl ?_
      · simp only [Connection.step, if_pos hclient.1, recv, hstage, if_pos hreceives, hperform,
          RecvResult.data, hall]
      · exact ⟨hclient.1, trivial⟩
      · simp only [remaining, hstage]
        exact (by decide : 1 < 2)
  | .readSeed (.completed (.ok bytes)) =>
    simp only [ClientInv, hstage] at hinv
    obtain ⟨hquiet, hprogress, -⟩ := hinv
    refine Connection.advances_client (a := .complete eightBytes)
      (d := s.2.onSeed clientOrder (.ok bytes) eightBytes) ?_ not_false (.inl rfl) hserver ?_ ?_ ?_
    · simp only [Connection.step, if_pos (eightBytes_allowed _), complete, hstage]
    all_goals
      simp only [onSeed, writeKey, NetworkOrder.data_ofHost,
        sendSync_eightBytes hclient.1 hquiet.operation (length_store _ _)]
    · exact ⟨hclient.1, trivial⟩
    · simp only [remaining, hstage]
      decide
  | .readSeed (.completed (.error ec)) | .ended => simp [hstage] at halive
  | .readKey operation | .notifyOwner => simp [ClientInv, hstage] at hinv
  | .sendBacklog | .startReception | .reception r => simp [remaining, hstage] at hmore

/-- A server takes the missing bytes of the key, and validates the connection when it has all of
them. -/
theorem LinkInv.advances_server (h : LinkInv serverOrder clientOrder seed s) (hserver : Alive s.1)
    (hclient : Alive s.2) (hidle : s.1.stage ≠ .idle) (hdone : remaining s.2 = 0)
    (hmore : remaining s.1 ≠ 0) :
    Advances serverOrder clientOrder serverCapacity clientCapacity seed s := by
  obtain ⟨-, hkey⟩ := h.key_written_of_remaining hclient hdone
  have halive := hserver.2
  match hstage : s.1.stage with
  | .idle => exact absurd hstage hidle
  | .readKey (.ongoing size filled) =>
    have hprogress := h.server.readKey _ hstage
    cases hprogress with
    | ongoing hless =>
      have hpart : s.1.received <+: store .bigEndian (computeKey seed) :=
        List.prefix_of_prefix_length_le h.toServer hkey
          (by rw [length_store]; exact Nat.le_of_lt hless)
      obtain ⟨hreceives, hperform, hall⟩ := perform_rest (length_store _ (computeKey seed)) hpart
      refine Connection.advances_server
        (a := .recv (.bytes ((store .bigEndian (computeKey seed)).drop s.1.received.length)))
        (d := { s.1 with
          received := store .bigEndian (computeKey seed)
          stage := .readKey (.completed (.ok (store .bigEndian (computeKey seed)))) })
        ?_ not_false (.inr (hall.symm ▸ hkey)) ?_ hclient rfl ?_
      · simp only [Connection.step, if_pos hserver.1, recv, hstage, if_pos hreceives, hperform,
          RecvResult.data, hall]
      · exact ⟨hserver.1, trivial⟩
      · simp only [remaining, hstage]
        exact (by decide : 1 < 2)
  | .readKey (.completed (.ok bytes)) =>
    refine Connection.advances_server (a := .complete eightBytes)
      (d := s.1.onKey serverOrder (.ok bytes)) ?_ not_false (.inl rfl) ?_ hclient ?_ ?_
    · simp only [Connection.step, if_pos (eightBytes_allowed _), complete, hstage]
    all_goals simp only [onKey, if_pos (h.toHost_key hstage)]
    · exact ⟨hserver.1, trivial⟩
    · simp only [remaining, hstage]
      decide
  | .readKey (.completed (.error ec)) | .ended => simp [hstage] at halive
  | .readSeed operation => exact absurd hstage (h.server.readSeed operation)
  | .sendBacklog | .notifyOwner | .startReception | .reception r =>
    simp [remaining, hstage] at hmore

/-- As long as the handshake is not completed at both ends, there is a step that brings it
forward. -/
theorem LinkInv.advances (h : LinkInv serverOrder clientOrder seed s) (hserver : Alive s.1)
    (hclient : Alive s.2) (hmore : ¬ (remaining s.1 = 0 ∧ remaining s.2 = 0)) :
    Advances serverOrder clientOrder serverCapacity clientCapacity seed s := by
  by_cases hidle : s.1.stage = .idle
  · exact h.advances_idle hserver hclient hidle
  by_cases hdone : remaining s.2 = 0
  · exact h.advances_server hserver hclient hidle hdone fun hzero => hmore ⟨hzero, hdone⟩
  · exact h.advances_client hserver hclient hidle hdone

theorem LinkInv.validated_of_remaining (h : LinkInv serverOrder clientOrder seed s)
    (hserver : Alive s.1) (hdone : remaining s.1 = 0) : s.1.isConnectionValidated = true := by
  have hvalidated := h.validated
  have halive := hserver.2
  rw [ValidatedBehind] at hvalidated
  rw [remaining] at hdone
  split at hdone
  all_goals simp_all

end Connection

end Asrt.ClientServer
