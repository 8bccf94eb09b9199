import Asrt.ToMathlib.Machine
import Asrt.ToMathlib.VectorOps

/-!
# The registry of a server's connections

`WaitForClientConnections()`, `OnConnectionError()` and `RemoveConnection()` of `ServerInterface`
(`impl/server_interface.ipp`). The accept handler starts the handshake of the new connection and
then adds the connection to `connections_`. The handshake fails inside `InitiateHandshake()` or
later, on the thread of the accept handler or on another one, and an established connection fails at
any time; each failure calls `OnConnectionError()`, which removes the connection with the same id.

If the failure comes before the connection is added, there is nothing to remove, and the dead
connection is added afterwards. An id has 32 bits of a counter that has more, so an id may come
again.

## Main results

- `registry_coherent_iff`: in a run, the ids in the registry are distinct, no failed connection is
  in it and no other one is missing, if and only if no connection has failed before it is added and
  no other connection in the registry has the id of the one that is added or fails.
- `inTime_of_created_le`: up to 2³² connections, ids do not come again, and this is only about the
  failures.
-/

namespace Asrt.ClientServer

open ToMathlib

/-- A `ConnectionToClient`. -/
structure Client where
  /-- Which object it is. -/
  object : ℕ
  /-- `conn_id_` -/
  connId : BitVec 32
deriving DecidableEq, Repr

/-- What the acceptor does. -/
inductive Acceptance
  /-- `Run()` was not called yet. -/
  | stopped
  /-- `AcceptAsync()` waits for the client of a connection. -/
  | waiting (client : Client)
  /-- The accept handler has called `InitiateHandshake()`, and has not added the connection yet. -/
  | handshaking (client : Client)
deriving DecidableEq, Repr

/-- `ServerInterface`, as far as it keeps its connections. -/
structure Registry where
  /-- `next_client_id_`, a `size_t`. -/
  nextClientId : BitVec 64 := 0
  /-- `connections_` -/
  connections : List Client := []
  acceptance : Acceptance := .stopped
  /-- How many connections were created. -/
  created : ℕ := 0
  /-- The connections whose handshake was started. -/
  started : List Client := []
  /-- The connections that were added to `connections_`. -/
  added : List Client := []
  /-- The connections that `OnConnectionError()` was called for. -/
  failed : List Client := []
deriving DecidableEq, Repr

/-- The steps of the server. -/
inductive RegistryAction
  | run
  /-- The accept handler is called. `accepted` tells whether there is a client and
  `OnClientConnect()` takes it. -/
  | accept (accepted : Bool)
  /-- The accept handler adds the connection and waits for the next client. -/
  | add
  | onConnectionError (client : Client)
deriving DecidableEq, Repr

namespace Registry

/-- `WaitForClientConnections()`. The id is what `uint32_t` holds of the counter. -/
def waitForClientConnections (s : Registry) : Registry :=
  { s with
    nextClientId := s.nextClientId + 1
    created := s.created + 1
    acceptance := .waiting { object := s.created, connId := s.nextClientId.setWidth 32 } }

/-- `RemoveConnection()` -/
def removeConnection (connId : BitVec 32) (s : Registry) : Registry :=
  { s with connections := swapRemove (fun client => client.connId = connId) s.connections }

/-- `OnConnectionError()` -/
def onConnectionError (client : Client) (s : Registry) : Registry :=
  { s.removeConnection client.connId with failed := s.failed ++ [client] }

/-- Execute a step. -/
def step (s : Registry) : RegistryAction → Option Registry
  | .run =>
    match s.acceptance with
    | .stopped => some s.waitForClientConnections
    | .waiting _ | .handshaking _ => none
  | .accept accepted =>
    match s.acceptance with
    | .waiting client =>
      if accepted then
        some { s with acceptance := .handshaking client, started := s.started ++ [client] }
      else some s.waitForClientConnections
    | .stopped | .handshaking _ => none
  | .add =>
    match s.acceptance with
    | .handshaking client =>
      some ({ s with
        connections := s.connections ++ [client]
        added := s.added ++ [client] }).waitForClientConnections
    | .stopped | .waiting _ => none
  | .onConnectionError client =>
    if client ∈ s.started then some (s.onConnectionError client) else none

/-- The machine of a server. -/
def machine : Machine Registry RegistryAction where
  init s := s = {}
  step := step

/-- The ids in the registry are distinct. A connection that has failed is not in it, once the accept
handler is done with it, and every other one that was added is. -/
structure Coherent (s : Registry) : Prop where
  ids : (s.connections.map Client.connId).Nodup
  failed : ∀ client ∈ s.failed, s.acceptance ≠ .handshaking client → client ∉ s.connections
  kept : ∀ client ∈ s.added, client ∉ s.failed → client ∈ s.connections

/-- The connection that is added has not failed, and neither its id nor that of a failing connection
belongs to another connection of the registry. -/
def InTime (s : Registry) : RegistryAction → Prop
  | .run | .accept _ => True
  | .add =>
    match s.acceptance with
    | .handshaking client =>
      client ∉ s.failed ∧ ∀ other ∈ s.connections, other.connId ≠ client.connId
    | .stopped | .waiting _ => True
  | .onConnectionError client =>
    ∀ other ∈ s.connections, other.connId = client.connId → other = client

/-- Bookkeeping: the connections of the registry were added, what was added or has failed was
started, and the connection of the accept handler is a new one. -/
structure WellFormed (s : Registry) : Prop where
  connections : ∀ client ∈ s.connections, client ∈ s.added
  added : ∀ client ∈ s.added, client ∈ s.started
  failed : ∀ client ∈ s.failed, client ∈ s.started
  started : ∀ client ∈ s.started, client.object < s.created
  waiting : ∀ client, s.acceptance = .waiting client →
    client.object < s.created ∧ ∀ other ∈ s.started, other.object ≠ client.object
  handshaking : ∀ client, s.acceptance = .handshaking client →
    client ∈ s.started ∧ client ∉ s.added

variable {s t : Registry} {a : RegistryAction}

theorem wellFormed_init : WellFormed {} where
  connections := by simp
  added := by simp
  failed := by simp
  started := by simp
  waiting := by simp
  handshaking := by simp

theorem coherent_init : Coherent {} where
  ids := by simp
  failed := by simp
  kept := by simp

/-- A new connection is told from all others. -/
theorem WellFormed.waitForClientConnections
    (hconnections : ∀ client ∈ s.connections, client ∈ s.added)
    (hadded : ∀ client ∈ s.added, client ∈ s.started)
    (hfailed : ∀ client ∈ s.failed, client ∈ s.started)
    (hstarted : ∀ client ∈ s.started, client.object < s.created) :
    s.waitForClientConnections.WellFormed where
  connections := hconnections
  added := hadded
  failed := hfailed
  started client hclient := Nat.lt_succ_of_lt (hstarted client hclient)
  waiting := by
    intro client hclient
    obtain rfl := Acceptance.waiting.inj hclient
    refine ⟨Nat.lt_succ_self _, ?_⟩
    intro other hother
    exact Nat.ne_of_lt (hstarted other hother)
  handshaking client hclient := by cases hclient

theorem WellFormed.step (h : s.WellFormed) (hids : s.Coherent) (hstep : s.step a = some t) :
    t.WellFormed := by
  obtain ⟨hconnections, hadded, hfailed, hstarted, hwaiting, hhandshaking⟩ := h
  cases a with
  | run =>
    simp only [Registry.step] at hstep
    split at hstep
    · obtain rfl := Option.some.inj hstep
      exact .waitForClientConnections hconnections hadded hfailed hstarted
    all_goals cases hstep
  | accept accepted =>
    simp only [Registry.step] at hstep
    split at hstep
    · rename_i client hclient
      split at hstep
      · obtain rfl := Option.some.inj hstep
        obtain ⟨hless, hnew⟩ := hwaiting client hclient
        refine ⟨hconnections, ?_, ?_, ?_, by simp, ?_⟩
        · intro c hc
          exact List.mem_append_left _ (hadded c hc)
        · intro c hc
          exact List.mem_append_left _ (hfailed c hc)
        · intro c hc
          rcases List.mem_append.mp hc with hc | hc
          · exact hstarted c hc
          · rw [List.mem_singleton.mp hc]
            exact hless
        · intro c hc
          obtain rfl := Acceptance.handshaking.inj hc
          refine ⟨List.mem_append_right _ List.mem_cons_self, ?_⟩
          -- what was added was started, and this connection was not
          intro hmem
          exact hnew _ (hadded _ hmem) rfl
      · obtain rfl := Option.some.inj hstep
        exact .waitForClientConnections hconnections hadded hfailed hstarted
    all_goals cases hstep
  | add =>
    simp only [Registry.step] at hstep
    split at hstep
    · rename_i client hclient
      obtain rfl := Option.some.inj hstep
      have hmem := (hhandshaking client hclient).1
      refine .waitForClientConnections ?_ ?_ hfailed hstarted
      · intro c hc
        rcases List.mem_append.mp hc with hc | hc
        · exact List.mem_append_left _ (hconnections c hc)
        · exact List.mem_append_right _ hc
      · intro c hc
        rcases List.mem_append.mp hc with hc | hc
        · exact hadded c hc
        · rw [List.mem_singleton.mp hc]
          exact hmem
    all_goals cases hstep
  | onConnectionError client =>
    simp only [Registry.step] at hstep
    split at hstep
    · rename_i hclient
      obtain rfl := Option.some.inj hstep
      -- `QuickRemoveOneIf()` takes one connection out and keeps the others
      refine ⟨?_, hadded, ?_, hstarted, hwaiting, hhandshaking⟩
      · intro c hc
        exact hconnections c ((mem_swapRemove_iff hids.ids).mp hc).1
      · intro c hc
        rcases List.mem_append.mp hc with hc | hc
        · exact hfailed c hc
        · rw [List.mem_singleton.mp hc]
          exact hclient
    · cases hstep

/-- Adding a connection keeps the registry coherent if and only if the connection has not failed and
its id is new. -/
theorem Coherent.add_iff (h : s.Coherent) {client : Client}
    (hclient : s.acceptance = .handshaking client) :
    ({ s with
      connections := s.connections ++ [client]
      added := s.added ++ [client] } : Registry).waitForClientConnections.Coherent ↔
      client ∉ s.failed ∧ ∀ other ∈ s.connections, other.connId ≠ client.connId := by
  constructor
  · rintro ⟨hids, hfailed, -⟩
    refine ⟨?_, ?_⟩
    · intro hmem
      exact hfailed client hmem (by simp [waitForClientConnections])
        (List.mem_append_right _ List.mem_cons_self)
    · intro other hother hequal
      have hnodup : (s.connections.map Client.connId ++ [client.connId]).Nodup := by
        simpa [waitForClientConnections] using hids
      -- the new id differs from all those before it
      have hdisjoint := (List.nodup_append.mp hnodup).2.2
      exact hdisjoint other.connId (List.mem_map_of_mem hother) client.connId List.mem_cons_self
        hequal
  · rintro ⟨hnew, hids⟩
    refine ⟨?_, ?_, ?_⟩
    · change ((s.connections ++ [client]).map Client.connId).Nodup
      rw [List.map_append, List.nodup_append]
      refine ⟨h.ids, by simp, ?_⟩
      intro id hid id' hid'
      obtain ⟨other, hother, rfl⟩ := List.mem_map.mp hid
      obtain rfl : id' = client.connId := by simpa using hid'
      exact hids other hother
    · intro c hc _ hmem
      rcases List.mem_append.mp hmem with hmem | hmem
      · -- the accept handler was busy with another connection
        refine h.failed c hc ?_ hmem
        rw [hclient]
        intro hequal
        obtain rfl := Acceptance.handshaking.inj hequal
        exact hnew hc
      · rw [List.mem_singleton.mp hmem] at hc
        exact hnew hc
    · intro c hc hnot
      rcases List.mem_append.mp hc with hc | hc
      · exact List.mem_append_left _ (h.kept c hc hnot)
      · exact List.mem_append_right _ hc

/-- Removing a connection keeps the registry coherent if and only if its id is not that of another
one. -/
theorem Coherent.onConnectionError_iff (h : s.Coherent) (hwf : s.WellFormed) (client : Client) :
    (s.onConnectionError client).Coherent ↔
      ∀ other ∈ s.connections, other.connId = client.connId → other = client := by
  have hmem : ∀ c, c ∈ (s.onConnectionError client).connections ↔
      c ∈ s.connections ∧ c.connId ≠ client.connId := fun c => mem_swapRemove_iff h.ids
  constructor
  · rintro ⟨-, -, hkept⟩ other hother hequal
    by_contra hne
    -- the other connection is alive, but it is removed
    have hother' : other ∈ s.added := hwf.connections other hother
    have halive : other ∉ s.failed ++ [client] := by
      intro hfailed
      rcases List.mem_append.mp hfailed with hfailed | hfailed
      · refine h.failed other hfailed ?_ hother
        intro hbusy
        exact (hwf.handshaking other hbusy).2 hother'
      · exact hne (List.mem_singleton.mp hfailed)
    exact ((hmem other).mp (hkept other hother' halive)).2 hequal
  · intro hothers
    refine ⟨nodup_map_swapRemove _ h.ids, ?_, ?_⟩
    · intro c hc hbusy hin
      obtain ⟨hin, hid⟩ := (hmem c).mp hin
      rcases List.mem_append.mp hc with hc | hc
      · exact h.failed c hc hbusy hin
      · rw [List.mem_singleton.mp hc] at hid
        exact hid rfl
    · intro c hc hnot
      -- a connection that is still alive has another id
      have hnot' : c ∉ s.failed := fun hfailed => hnot (List.mem_append_left _ hfailed)
      refine (hmem c).mpr ⟨h.kept c hc hnot', ?_⟩
      intro hequal
      refine hnot (List.mem_append_right _ ?_)
      rw [hothers c (h.kept c hc hnot') hequal]
      exact List.mem_cons_self

/-- From a coherent state, a step leads to a coherent state if and only if it meets the
condition. -/
theorem Coherent.step_iff (h : s.Coherent) (hwf : s.WellFormed) (hstep : s.step a = some t) :
    t.Coherent ↔ s.InTime a := by
  cases a with
  | run =>
    simp only [step] at hstep
    split at hstep
    · rename_i hstopped
      obtain rfl := Option.some.inj hstep
      refine iff_of_true ⟨h.ids, ?_, h.kept⟩ trivial
      intro c hc _
      exact h.failed c hc (by simp [hstopped])
    all_goals cases hstep
  | accept accepted =>
    simp only [step] at hstep
    split at hstep
    · rename_i client hclient
      -- no connection has been exempt so far, since the accept handler was not busy
      have hfailed : ∀ c ∈ s.failed, c ∉ s.connections :=
        fun c hc => h.failed c hc (by simp [hclient])
      split at hstep
      · obtain rfl := Option.some.inj hstep
        exact iff_of_true ⟨h.ids, fun c hc _ => hfailed c hc, h.kept⟩ trivial
      · obtain rfl := Option.some.inj hstep
        exact iff_of_true ⟨h.ids, fun c hc _ => hfailed c hc, h.kept⟩ trivial
    all_goals cases hstep
  | add =>
    simp only [step] at hstep
    split at hstep
    · rename_i client hclient
      obtain rfl := Option.some.inj hstep
      rw [h.add_iff hclient]
      simp only [InTime, hclient]
    all_goals cases hstep
  | onConnectionError client =>
    simp only [step] at hstep
    split at hstep
    · obtain rfl := Option.some.inj hstep
      exact h.onConnectionError_iff hwf client
    · cases hstep

/-! ## Ids -/

/-- The id of a connection is the low half of the number of connections that were created before. -/
structure Numbered (s : Registry) : Prop where
  next : s.nextClientId = BitVec.ofNat 64 s.created
  started : ∀ client ∈ s.started,
    client.connId = BitVec.ofNat 32 client.object ∧ client.object < s.created
  waiting : ∀ client, s.acceptance = .waiting client →
    client.connId = BitVec.ofNat 32 client.object ∧ client.object < s.created

theorem Numbered.waitForClientConnections (hnext : s.nextClientId = BitVec.ofNat 64 s.created)
    (hstarted : ∀ client ∈ s.started,
      client.connId = BitVec.ofNat 32 client.object ∧ client.object < s.created) :
    s.waitForClientConnections.Numbered where
  next := by simp [Registry.waitForClientConnections, hnext, BitVec.ofNat_add]
  started client hclient :=
    ⟨(hstarted client hclient).1, Nat.lt_succ_of_lt (hstarted client hclient).2⟩
  waiting := by
    intro client hclient
    obtain rfl := Acceptance.waiting.inj hclient
    refine ⟨?_, Nat.lt_succ_self _⟩
    rw [hnext]
    exact BitVec.setWidth_ofNat_of_le (show 32 ≤ 64 by decide) s.created

theorem Numbered.step (h : s.Numbered) (hstep : s.step a = some t) : t.Numbered := by
  obtain ⟨hnext, hstarted, hwaiting⟩ := h
  cases a with
  | run =>
    simp only [Registry.step] at hstep
    split at hstep
    · obtain rfl := Option.some.inj hstep
      exact .waitForClientConnections hnext hstarted
    all_goals cases hstep
  | accept accepted =>
    simp only [Registry.step] at hstep
    split at hstep
    · rename_i client hclient
      split at hstep
      · obtain rfl := Option.some.inj hstep
        refine ⟨hnext, ?_, by simp⟩
        intro c hc
        rcases List.mem_append.mp hc with hc | hc
        · exact hstarted c hc
        · rw [List.mem_singleton.mp hc]
          exact hwaiting client hclient
      · obtain rfl := Option.some.inj hstep
        exact .waitForClientConnections hnext hstarted
    all_goals cases hstep
  | add =>
    simp only [Registry.step] at hstep
    split at hstep
    · obtain rfl := Option.some.inj hstep
      exact .waitForClientConnections hnext hstarted
    all_goals cases hstep
  | onConnectionError client =>
    obtain ⟨-, hstep⟩ := Option.ite_none_right_eq_some.mp hstep
    obtain rfl := Option.some.inj hstep
    exact ⟨hnext, hstarted, hwaiting⟩

theorem numbered_of_reachable (hs : machine.Reachable s) : s.Numbered := by
  refine hs.invariant ?_ fun _ _ _ h _ hstep => h.step hstep
  rintro _ rfl
  exact ⟨rfl, by simp, by simp⟩

/-- Up to the bound, an id belongs to one connection only: the number of the connection is read off
it. -/
theorem Numbered.object_eq (h : s.Numbered) (hbound : s.created ≤ 2 ^ 32) {c d : Client}
    (hc : c ∈ s.started) (hd : d ∈ s.started) (hid : c.connId = d.connId) :
    c.object = d.object := by
  obtain ⟨hcid, hcless⟩ := h.started c hc
  obtain ⟨hdid, hdless⟩ := h.started d hd
  have hnumbers := congrArg BitVec.toNat (hcid.symm.trans (hid.trans hdid))
  rwa [BitVec.toNat_ofNat, BitVec.toNat_ofNat, Nat.mod_eq_of_lt (hcless.trans_le hbound),
    Nat.mod_eq_of_lt (hdless.trans_le hbound)] at hnumbers

theorem Numbered.eq_of_connId (h : s.Numbered) (hbound : s.created ≤ 2 ^ 32) {c d : Client}
    (hc : c ∈ s.started) (hd : d ∈ s.started) (hid : c.connId = d.connId) : c = d := by
  have hobject := h.object_eq hbound hc hd hid
  cases c
  cases d
  cases hobject
  cases hid
  rfl

/-- Up to the bound, a step meets the condition unless it adds a connection that has failed. -/
theorem inTime_of_created_le (hs : machine.Reachable s) (hwf : s.WellFormed)
    (hbound : s.created ≤ 2 ^ 32) (hstep : s.step a = some t)
    (hadd : ∀ client, s.acceptance = .handshaking client → client ∉ s.failed) : s.InTime a := by
  have hnumbered := numbered_of_reachable hs
  have hstarted : ∀ other ∈ s.connections, other ∈ s.started :=
    fun other hother => hwf.added other (hwf.connections other hother)
  cases a with
  | run | accept _ => trivial
  | add =>
    simp only [InTime]
    split
    · rename_i client hclient
      refine ⟨hadd client hclient, fun other hother hid => ?_⟩
      obtain ⟨hmem, hnew⟩ := hwf.handshaking client hclient
      -- the connection that is added is not in the registry yet
      obtain rfl := hnumbered.eq_of_connId hbound (hstarted other hother) hmem hid
      exact hnew (hwf.connections other hother)
    all_goals trivial
  | onConnectionError client =>
    obtain ⟨hclient, -⟩ := Option.ite_none_right_eq_some.mp hstep
    intro other hother hid
    exact hnumbered.eq_of_connId hbound (hstarted other hother) hclient hid

/-! ## Main result -/

/-- In a run of the server, the registry is coherent at all times if and only if no connection has
failed when the accept handler adds it, and whenever a connection is added or fails, no other
connection of the registry has its id. -/
theorem registry_coherent_iff (as : List RegistryAction) :
    machine.Along (fun _ _ t => t.Coherent) {} as ↔
      machine.Along (fun s a _ => s.InTime a) {} as := by
  refine Machine.along_iff_of_invariant (I := fun s => s.Coherent ∧ s.WellFormed)
    ⟨coherent_init, wellFormed_init⟩ ?_ ?_
  · rintro s a t ⟨hs, hwf⟩ hstep
    exact hs.step_iff hwf hstep
  · rintro s a t ⟨hs, hwf⟩ hstep ht
    exact ⟨ht, hwf.step hs hstep⟩

/-- The handshake fails inside `InitiateHandshake()`. The accept handler then adds the dead
connection, and nothing removes it. -/
theorem registry_coherent_failed_handshake :
    ∃ s, machine.Reachable s ∧ s.failed = [⟨0, 0⟩] ∧ s.acceptance = .waiting ⟨1, 1⟩ ∧
      s.connections = [⟨0, 0⟩] ∧ ¬ s.Coherent := by
  have hs := Machine.reachableIn_get_run (M := machine) (C := Machine.Always)
    (l := [.run, .accept true, .onConnectionError ⟨0, 0⟩, .add]) rfl (by decide)
  refine ⟨_, hs, by decide, by decide, by decide, ?_⟩
  intro h
  exact h.failed ⟨0, 0⟩ (by decide) (by decide) (by decide)

end Registry

end Asrt.ClientServer
