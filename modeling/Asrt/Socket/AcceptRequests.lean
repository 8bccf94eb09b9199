import Asrt.Socket.Acceptor

/-!
# Requests to an acceptor

`BasicAcceptorSocket` with the completion handlers and the peer sockets of the requests made to it.
A request is kept in `on_accept_complete_`, `peer_socket_` and `peer_info_` until the reactor's
notification completes it; after a notification that found no request the next one tries `accept4()`
at once, and if that does not block its handler is posted to the executor and nothing is stored.

Notifications and the outcomes of `accept4()` are arbitrary here: the reactor and the backlog are
those of `Acceptor.lean`. The handling of a notification is cut where its thread gives up the mutex.
Calls of `AcceptAsync()`, by other threads or by the completion handlers, may come in between.

## Main results

- `accept_requests_iff`: in a run, the acceptor is in `kAccepting` exactly while one request is
  pending and stored, each request is completed once and none is refused without a pending one, if
  and only if every attempt to accept at once finds the backlog empty.
-/

namespace Asrt.Socket.Acceptor

open ToMathlib

/-- What `AcceptAsync()` is called with: handlers `H`, sockets `P` and endpoints `E`. -/
structure Request (H P E : Type) where
  acceptHandler : H
  peerSocket : P
  /-- The argument of one overload; `nullptr` in the other one. -/
  peerEndpoint : Option E
deriving DecidableEq, Repr

/-- The errors that `AcceptAsync()` returns. -/
inductive AcceptError
  | acceptOperationOngoing
  | socketNotBound
  /-- The error of `listen()`. -/
  | listenError
deriving DecidableEq, Repr

/-- Where `OnReactorEventImpl()` is. -/
inductive Handling
  /-- It is not executing. -/
  | idle
  /-- `HandleAysncAccept()` has released the mutex to call `accept4()`. -/
  | accepting
  /-- `accept4()` has returned and the mutex is not yet taken again. -/
  | accepted (result : AcceptResult)
  /-- The completion handler runs. -/
  | callback
deriving DecidableEq, Repr

/-- `BasicAcceptorSocket` -/
structure BasicAcceptorSocket (H P E : Type) where
  /-- `acceptor_sockstate_` -/
  acceptorSockstate : AcceptorSocketState := .kBound
  /-- `on_accept_complete_` -/
  onAcceptComplete : Option H := none
  /-- `peer_socket_` -/
  peerSocket : Option P := none
  /-- `peer_info_` -/
  peerInfo : Option E := none
  /-- `speculative_accept_` -/
  speculativeAccept : Bool := false
  handling : Handling := .idle
  /-- The handlers posted to the executor for immediate completion, with their results. -/
  posted : List (H × AcceptResult) := []
  /-- Ghost: the requests that were not refused. -/
  requests : List (Request H P E) := []
  /-- Ghost: the calls of completion handlers. -/
  invoked : List (H × AcceptResult) := []
deriving DecidableEq, Repr

/-- The calls of the clients, the notifications of the reactor and the steps of the threads that
handle them. -/
inductive RequestAction (H P E : Type)
  /-- `Listen()` -/
  | listen (listens : Bool)
  /-- `AcceptAsync()`; `listens` is the outcome of `listen()` and `result` that of `accept4()`, for
  calls that get that far. -/
  | acceptAsync (request : Request H P E) (listens : Bool) (result : AcceptResult)
  /-- The reactor calls `OnReactorEventImpl()`. -/
  | event
  /-- The `accept4()` of `HandleAysncAccept()` returns. -/
  | accept (result : AcceptResult)
  /-- `HandleAysncAccept()` has the mutex again. -/
  | resume
  /-- The completion handler that `HandleAysncAccept()` has called returns. -/
  | returns
  /-- The executor runs the first handler posted for immediate completion. -/
  | immediate
deriving DecidableEq, Repr

/-- The action is not a call of a client. -/
def RequestAction.IsInternal {H P E : Type} : RequestAction H P E → Prop
  | .listen _ | .acceptAsync _ _ _ => False
  | _ => True

namespace BasicAcceptorSocket

variable {H P E : Type}

/-- `Listen()` -/
def listen (σ : BasicAcceptorSocket H P E) (listens : Bool) : BasicAcceptorSocket H P E :=
  if σ.acceptorSockstate = .kBound ∧ listens then { σ with acceptorSockstate := .kListening }
  else σ

/-- `DoAsyncAccept()` -/
def doAsyncAccept (σ : BasicAcceptorSocket H P E) (request : Request H P E)
    (result : AcceptResult) :
    BasicAcceptorSocket H P E :=
  -- `accept4()` is called only if the speculative flag is set
  let asyncNeeded := !σ.speculativeAccept || result.isBusy
  let σ := { σ with speculativeAccept := false }
  if asyncNeeded then
    { σ with
      peerSocket := some request.peerSocket
      peerInfo := request.peerEndpoint
      onAcceptComplete := some request.acceptHandler }
  else { σ with posted := σ.posted ++ [(request.acceptHandler, result)] }

/-- A request that is not refused. -/
def startAccept (σ : BasicAcceptorSocket H P E) (request : Request H P E) (result : AcceptResult) :
    BasicAcceptorSocket H P E :=
  { σ with
    acceptorSockstate := .kAccepting
    requests := σ.requests ++ [request] }.doAsyncAccept request result

/-- `AcceptAsyncInternal()` -/
def acceptAsyncInternal (σ : BasicAcceptorSocket H P E) (request : Request H P E) (listens : Bool)
    (result : AcceptResult) : BasicAcceptorSocket H P E × Except AcceptError Unit :=
  match σ.acceptorSockstate with
  | .kListening => (σ.startAccept request result, .ok ())
  | .kBound =>
    if listens then (σ.startAccept request result, .ok ()) else (σ, .error .listenError)
  | .kAccepting => (σ, .error .acceptOperationOngoing)
  | .kDisconnected => (σ, .error .socketNotBound)

/-- `OnReactorEventImpl()` up to the call of `accept4()`. -/
def onReactorEventImpl (σ : BasicAcceptorSocket H P E) : BasicAcceptorSocket H P E :=
  if σ.acceptorSockstate = .kAccepting then { σ with handling := .accepting }
  else { σ with speculativeAccept := true }

/-- `HandleAysncAccept()` once it has the mutex again. Calling an empty completion handler ends the
program. -/
def handleAysncAccept (σ : BasicAcceptorSocket H P E) (result : AcceptResult) :
    Option (BasicAcceptorSocket H P E) :=
  if σ.acceptorSockstate = .kDisconnected then some { σ with handling := .idle }
  -- a false wake-up: the request stays pending
  else if result.isBusy then some { σ with handling := .idle }
  else
    σ.onAcceptComplete.map fun handler =>
      { σ with
        onAcceptComplete := none
        acceptorSockstate := .kListening
        handling := .callback
        invoked := σ.invoked ++ [(handler, result)] }

/-- The step labelled by an action, if it is enabled. The reactor does not call
`OnReactorEventImpl()` while it executes. -/
def step (σ : BasicAcceptorSocket H P E) : RequestAction H P E → Option (BasicAcceptorSocket H P E)
  | .listen listens => some (σ.listen listens)
  | .acceptAsync request listens result => some (σ.acceptAsyncInternal request listens result).1
  | .event => if σ.handling = .idle then some σ.onReactorEventImpl else none
  | .accept result =>
    -- the program is undefined without a peer socket
    if σ.handling = .accepting ∧ σ.peerSocket.isSome then
      some { σ with handling := .accepted result }
    else none
  | .resume =>
    match σ.handling with
    | .accepted result => σ.handleAysncAccept result
    | _ => none
  | .returns => if σ.handling = .callback then some { σ with handling := .idle } else none
  | .immediate =>
    match σ.posted with
    | job :: posted => some { σ with posted, invoked := σ.invoked ++ [job] }
    | [] => none

/-- The requests as a machine, from a socket that has been bound. -/
def machine (H P E : Type) : Machine (BasicAcceptorSocket H P E) (RequestAction H P E) where
  init σ := σ = {}
  step := step

/-! ## The property -/

/-- The handlers of the requests that were not refused. -/
def handlers (σ : BasicAcceptorSocket H P E) : List H := σ.requests.map Request.acceptHandler

/-- The handlers that were called. -/
def called (σ : BasicAcceptorSocket H P E) : List H := σ.invoked.map Prod.fst

/-- The request is the last one, and the handlers of all others have been called, each once. -/
def Pending (σ : BasicAcceptorSocket H P E) (request : Request H P E) : Prop :=
  ∃ earlier, σ.requests = earlier ++ [request] ∧ earlier.map Request.acceptHandler = σ.called

/-- The request's handler, peer socket and endpoint are stored. -/
def Stored (σ : BasicAcceptorSocket H P E) (request : Request H P E) : Prop :=
  σ.onAcceptComplete = some request.acceptHandler ∧ σ.peerSocket = some request.peerSocket ∧
    σ.peerInfo = request.peerEndpoint

/-- All requests can still be completed, without a call of a client. -/
def Completes (σ : BasicAcceptorSocket H P E) : Prop :=
  ∃ as σ', (∀ a ∈ as, RequestAction.IsInternal a) ∧
    (machine H P E).run Machine.Always σ as = some σ' ∧ σ'.requests = σ.requests ∧
      σ'.handlers = σ'.called

/-- What the acceptor owes its clients. -/
structure Keeps (σ : BasicAcceptorSocket H P E) : Prop where
  /-- The acceptor is in `kAccepting` exactly when one request is pending, and it is stored. -/
  accepting : σ.acceptorSockstate = .kAccepting ↔ ∃ request, σ.Pending request ∧ σ.Stored request
  /-- The handler of each request has been called once, except for a pending one. -/
  once : (∃ request, σ.Pending request) ∨ σ.handlers = σ.called
  /-- When all handlers have been called, no request is refused as already in progress. -/
  renewable : σ.handlers = σ.called → ∀ request listens result,
    (σ.acceptAsyncInternal request listens result).2 ≠ .error .acceptOperationOngoing
  /-- A pending request is not lost. -/
  completes : σ.Completes

/-- An attempt to accept at once finds the backlog empty. -/
def FindsNone (σ : BasicAcceptorSocket H P E) : RequestAction H P E → Prop
  | .acceptAsync _ listens result => σ.speculativeAccept = true →
    σ.acceptorSockstate = .kListening ∨ σ.acceptorSockstate = .kBound ∧ listens = true →
      result.isBusy = true
  | _ => True

/-- The invariant: as long as nothing was posted, the stored request is the pending one. -/
structure Inv (σ : BasicAcceptorSocket H P E) : Prop where
  posted : σ.posted = []
  pending : σ.acceptorSockstate = .kAccepting → ∃ request, σ.Pending request ∧ σ.Stored request
  done : σ.acceptorSockstate ≠ .kAccepting → σ.handlers = σ.called ∧ σ.onAcceptComplete = none
  /-- `accept4()` is called for a pending request. -/
  handling : σ.handling ≠ .idle → σ.handling ≠ .callback → σ.acceptorSockstate = .kAccepting
  bound : σ.acceptorSockstate ≠ .kDisconnected

variable {σ σ' : BasicAcceptorSocket H P E} {request : Request H P E} {result : AcceptResult}

theorem Inv.init : ({} : BasicAcceptorSocket H P E).Inv where
  posted := rfl
  pending h := by cases h
  done _ := ⟨rfl, rfl⟩
  handling h := absurd rfl h
  bound h := by cases h

/-- There is no pending request once all handlers have been called. -/
theorem Pending.handlers_ne (h : σ.Pending request) : σ.handlers ≠ σ.called := by
  obtain ⟨earlier, hrequests, hcalled⟩ := h
  intro heq
  have hlength := congrArg List.length heq
  simp [handlers, hrequests, ← hcalled] at hlength

/-! ## Steps -/

/-- `HandleAysncAccept()` completes the pending request when `accept4()` has not blocked. -/
theorem handleAysncAccept_of_stored (haccepting : σ.acceptorSockstate = .kAccepting)
    (hstored : σ.Stored request) (hresult : result.isBusy = false) :
    σ.handleAysncAccept result = some { σ with
      onAcceptComplete := none
      acceptorSockstate := .kListening
      handling := .callback
      invoked := σ.invoked ++ [(request.acceptHandler, result)] } := by
  simp [handleAysncAccept, haccepting, hresult, hstored.1]

/-- After a false wake-up the request stays pending. -/
theorem handleAysncAccept_of_isBusy (haccepting : σ.acceptorSockstate = .kAccepting)
    (hresult : result.isBusy = true) :
    σ.handleAysncAccept result = some { σ with handling := .idle } := by
  rw [handleAysncAccept, if_neg (by simp [haccepting]), if_pos hresult]

/-- The handler of the pending request is the last one to be called. -/
theorem Pending.called_append (h : σ.Pending request) :
    σ.handlers = σ.called ++ [request.acceptHandler] := by
  obtain ⟨earlier, hrequests, hcalled⟩ := h
  simp [handlers, hrequests, hcalled]

/-- A request that is not refused is the pending one. -/
theorem Inv.startAccept_pending (h : σ.Inv) (haccepting : σ.acceptorSockstate ≠ .kAccepting) :
    (σ.startAccept request result).Pending request := by
  refine ⟨σ.requests, ?_, ?_⟩
  · simp only [startAccept, doAsyncAccept]
    split <;> rfl
  · have hsame : (σ.startAccept request result).called = σ.called := by
      simp only [startAccept, doAsyncAccept]
      split <;> rfl
    rw [hsame]
    exact (h.done haccepting).1

/-- A request that is left to the reactor is stored. -/
theorem startAccept_of_asyncNeeded (hasync : σ.speculativeAccept = true → result.isBusy = true) :
    σ.startAccept request result = { σ with
      acceptorSockstate := .kAccepting
      requests := σ.requests ++ [request]
      speculativeAccept := false
      peerSocket := some request.peerSocket
      peerInfo := request.peerEndpoint
      onAcceptComplete := some request.acceptHandler } := by
  have hneeded : (!σ.speculativeAccept || result.isBusy) = true := by
    cases hspec : σ.speculativeAccept with
    | false => rfl
    | true => exact hasync hspec
  simp [startAccept, doAsyncAccept, hneeded]

theorem Inv.startAccept (h : σ.Inv) (haccepting : σ.acceptorSockstate ≠ .kAccepting)
    (hasync : σ.speculativeAccept = true → result.isBusy = true) :
    (σ.startAccept request result).Inv := by
  -- all earlier requests are done, so the new one is the pending one
  have hpending : (σ.startAccept request result).Pending request := h.startAccept_pending haccepting
  rw [startAccept_of_asyncNeeded hasync] at hpending ⊢
  exact {
    posted := h.posted
    pending := fun _ => ⟨request, hpending, rfl, rfl, rfl⟩
    done := fun hne => absurd rfl hne
    handling := fun _ _ => rfl
    bound := fun hne => by cases hne }

/-- What `AcceptAsync()` does: it starts the request, or leaves the acceptor as it is. -/
theorem acceptAsyncInternal_fst (σ : BasicAcceptorSocket H P E) (request : Request H P E)
    (listens : Bool) (result : AcceptResult) :
    (σ.acceptAsyncInternal request listens result).1 =
      if σ.acceptorSockstate = .kListening ∨ σ.acceptorSockstate = .kBound ∧ listens = true
      then σ.startAccept request result else σ := by
  unfold acceptAsyncInternal
  split
  · simp [*]
  · rename_i hbound
    cases listens <;> simp [hbound]
  · simp [*]
  · simp [*]

/-- A request keeps the invariant if an attempt to accept at once finds the backlog empty. -/
theorem Inv.acceptAsync (h : σ.Inv) {listens : Bool}
    (hnone : σ.FindsNone (.acceptAsync request listens result)) :
    (σ.acceptAsyncInternal request listens result).1.Inv := by
  rw [acceptAsyncInternal_fst]
  split
  · rename_i hstate
    refine h.startAccept ?_ fun hspec => hnone hspec hstate
    intro haccepting
    rw [haccepting] at hstate
    simp at hstate
  · exact h

/-- Only the progress of the handling changes. -/
theorem Inv.of_handling (h : σ.Inv) {handling : Handling}
    (hhandling : handling ≠ .idle → handling ≠ .callback → σ.acceptorSockstate = .kAccepting) :
    { σ with handling }.Inv where
  posted := h.posted
  pending := h.pending
  done := h.done
  handling := hhandling
  bound := h.bound

theorem Inv.listen (h : σ.Inv) (listens : Bool) : (σ.listen listens).Inv := by
  unfold BasicAcceptorSocket.listen
  split
  · rename_i hstate
    have haccepting : σ.acceptorSockstate ≠ .kAccepting := by rw [hstate.1]; decide
    exact {
      posted := h.posted
      pending := fun heq => by cases heq
      done := fun _ => h.done haccepting
      handling := fun hidle hcallback => absurd (h.handling hidle hcallback) haccepting
      bound := fun heq => by cases heq }
  · exact h

theorem Inv.onReactorEventImpl (h : σ.Inv) : σ.onReactorEventImpl.Inv := by
  unfold BasicAcceptorSocket.onReactorEventImpl
  split
  · rename_i haccepting
    exact h.of_handling fun _ _ => haccepting
  · exact ⟨h.posted, h.pending, h.done, h.handling, h.bound⟩

/-- The end of `accept4()` leaves the request pending, or completes it. -/
theorem Inv.handleAysncAccept (h : σ.Inv) (haccepting : σ.acceptorSockstate = .kAccepting)
    (hσ' : σ.handleAysncAccept result = some σ') : σ'.Inv := by
  obtain ⟨request, hpending, hstored⟩ := h.pending haccepting
  cases hresult : result.isBusy with
  | true =>
    rw [handleAysncAccept_of_isBusy haccepting hresult] at hσ'
    obtain rfl := Option.some.inj hσ'
    exact h.of_handling fun hidle => absurd rfl hidle
  | false =>
    -- the stored handler is that of the pending request, and the last one to be called
    rw [handleAysncAccept_of_stored haccepting hstored hresult] at hσ'
    obtain rfl := Option.some.inj hσ'
    exact {
      posted := h.posted
      pending := fun heq => by cases heq
      done := fun _ => ⟨by simpa [handlers, called] using hpending.called_append, rfl⟩
      handling := fun _ hcallback => absurd rfl hcallback
      bound := fun heq => by cases heq }

/-- Every step that meets the condition keeps the invariant. -/
theorem Inv.step (h : σ.Inv) {a : RequestAction H P E} (hnone : σ.FindsNone a)
    (hσ' : σ.step a = some σ') : σ'.Inv := by
  cases a with
  | listen listens =>
    obtain rfl := Option.some.inj hσ'
    exact h.listen listens
  | acceptAsync request listens result =>
    obtain rfl := Option.some.inj hσ'
    exact h.acceptAsync hnone
  | event =>
    simp only [BasicAcceptorSocket.step] at hσ'
    split at hσ'
    · obtain rfl := Option.some.inj hσ'
      exact h.onReactorEventImpl
    · cases hσ'
  | accept result =>
    simp only [BasicAcceptorSocket.step] at hσ'
    split at hσ'
    · rename_i hhandling
      obtain rfl := Option.some.inj hσ'
      -- `AcceptAsync()` of another thread was refused in between
      have haccepting := h.handling (by rw [hhandling.1]; decide) (by rw [hhandling.1]; decide)
      exact h.of_handling fun _ _ => haccepting
    · cases hσ'
  | resume =>
    simp only [BasicAcceptorSocket.step] at hσ'
    split at hσ'
    · rename_i result hhandling
      refine h.handleAysncAccept (h.handling ?_ ?_) hσ'
      · rw [hhandling]; simp
      · rw [hhandling]; simp
    · cases hσ'
  | returns =>
    simp only [BasicAcceptorSocket.step] at hσ'
    split at hσ'
    · obtain rfl := Option.some.inj hσ'
      exact h.of_handling fun hidle => absurd rfl hidle
    · cases hσ'
  | immediate =>
    -- nothing has been posted
    simp only [BasicAcceptorSocket.step, h.posted] at hσ'
    cases hσ'

/-! ## Completion -/

/-- The number of steps that the handling of notifications needs to complete a pending request. -/
def work (σ : BasicAcceptorSocket H P E) : ℕ :=
  if σ.acceptorSockstate = .kAccepting then
    match σ.handling with
    | .accepted result => if result.isBusy then 4 else 1
    | .accepting => 2
    | .idle => 3
    | .callback => 4
  else 0

/-- Wherever the handling of a notification is, it can go on towards the completion of the pending
request. -/
theorem Inv.exists_step (h : σ.Inv) (hcalled : σ.handlers ≠ σ.called) :
    ∃ a σ', σ.step a = some σ' ∧ a.IsInternal ∧ σ.FindsNone a ∧ σ'.requests = σ.requests ∧
      σ'.work < σ.work := by
  have haccepting : σ.acceptorSockstate = .kAccepting := by
    by_contra hne
    exact hcalled (h.done hne).1
  obtain ⟨request, hpending, hstored⟩ := h.pending haccepting
  cases hhandling : σ.handling with
  | idle =>
    have hstep : σ.step .event = some { σ with handling := .accepting } := by
      simp [BasicAcceptorSocket.step, hhandling, BasicAcceptorSocket.onReactorEventImpl, haccepting]
    refine ⟨_, _, hstep, trivial, trivial, rfl, ?_⟩
    simp [work, haccepting, hhandling]
  | accepting =>
    have hstep : σ.step (.accept .connection) =
        some { σ with handling := .accepted .connection } := by
      simp [BasicAcceptorSocket.step, hhandling, hstored.2.1]
    refine ⟨_, _, hstep, trivial, trivial, rfl, ?_⟩
    simp [work, haccepting, hhandling, AcceptResult.isBusy]
  | callback =>
    have hstep : σ.step .returns = some { σ with handling := .idle } := by
      simp [BasicAcceptorSocket.step, hhandling]
    refine ⟨_, _, hstep, trivial, trivial, rfl, ?_⟩
    simp [work, haccepting, hhandling]
  | accepted result =>
    have hstep : σ.step .resume = σ.handleAysncAccept result := by
      simp only [BasicAcceptorSocket.step, hhandling]
    cases hresult : result.isBusy with
    | false =>
      rw [handleAysncAccept_of_stored haccepting hstored hresult] at hstep
      refine ⟨_, _, hstep, trivial, trivial, rfl, ?_⟩
      simp [work, haccepting, hhandling, hresult]
    | true =>
      -- a false wake-up is followed by another notification
      rw [handleAysncAccept_of_isBusy haccepting hresult] at hstep
      refine ⟨_, _, hstep, trivial, trivial, rfl, ?_⟩
      simp [work, haccepting, hhandling, hresult]

theorem Inv.completes (h : σ.Inv) : σ.Completes := by
  have hprogress : ∀ σ₁, (σ₁.requests = σ.requests ∧ σ₁.Inv) → ¬ σ₁.handlers = σ₁.called →
      ∃ a σ₂, (machine H P E).step σ₁ a = some σ₂ ∧ Machine.Always σ₁ a ∧ a.IsInternal ∧
        (σ₂.requests = σ.requests ∧ σ₂.Inv) ∧ σ₂.work < σ₁.work := by
    rintro σ₁ ⟨hrequests, h₁⟩ hcalled
    obtain ⟨a, σ₂, hstep, hinternal, hnone, hsame, hless⟩ := h₁.exists_step hcalled
    exact ⟨a, σ₂, hstep, trivial, hinternal, ⟨hsame.trans hrequests, h₁.step hnone hstep⟩, hless⟩
  obtain ⟨as, σ', has, hrun, ⟨hrequests, -⟩, hcalled⟩ :=
    Machine.exists_run_of_work work hprogress ⟨rfl, h⟩
  exact ⟨as, σ', has, hrun, hrequests, hcalled⟩

theorem Inv.keeps (h : σ.Inv) : σ.Keeps := by
  have hiff : σ.acceptorSockstate = .kAccepting ↔
      ∃ request, σ.Pending request ∧ σ.Stored request := by
    refine ⟨h.pending, ?_⟩
    rintro ⟨request, hpending, -⟩
    by_contra haccepting
    exact hpending.handlers_ne (h.done haccepting).1
  refine ⟨hiff, ?_, ?_, h.completes⟩
  · by_cases haccepting : σ.acceptorSockstate = .kAccepting
    · obtain ⟨request, hpending, -⟩ := h.pending haccepting
      exact .inl ⟨request, hpending⟩
    · exact .inr (h.done haccepting).1
  · intro hcalled request listens result
    -- only the state `kAccepting` refuses a request as already in progress
    have haccepting : σ.acceptorSockstate ≠ .kAccepting := by
      intro haccepting
      obtain ⟨pending, hpending, -⟩ := h.pending haccepting
      exact hpending.handlers_ne hcalled
    unfold acceptAsyncInternal
    split
    · simp
    · split <;> simp
    · contradiction
    · simp

/-- A request that is completed at once leaves the acceptor in `kAccepting` with nothing stored. -/
theorem Inv.not_keeps_startAccept (h : σ.Inv) (haccepting : σ.acceptorSockstate ≠ .kAccepting)
    (hspec : σ.speculativeAccept = true) (hresult : result.isBusy = false) :
    ¬ (σ.startAccept request result).Keeps := by
  intro hkeeps
  have hstate : (σ.startAccept request result).acceptorSockstate = .kAccepting := by
    simp [BasicAcceptorSocket.startAccept, doAsyncAccept, hspec, hresult]
  -- the handler went to the executor instead
  have hempty : (σ.startAccept request result).onAcceptComplete = none := by
    simp [BasicAcceptorSocket.startAccept, doAsyncAccept, hspec, hresult, (h.done haccepting).2]
  obtain ⟨pending, -, hstored, -⟩ := hkeeps.accepting.mp hstate
  rw [hempty] at hstored
  cases hstored

/-- A step keeps what the acceptor owes its clients if and only if it meets the condition. -/
theorem Inv.keeps_step_iff (h : σ.Inv) {a : RequestAction H P E} (hσ' : σ.step a = some σ') :
    σ'.Keeps ↔ σ.FindsNone a := by
  refine ⟨fun hkeeps => ?_, fun hnone => (h.step hnone hσ').keeps⟩
  cases a with
  | acceptAsync request listens result =>
    intro hspec hstate
    obtain rfl := Option.some.inj hσ'
    rw [acceptAsyncInternal_fst, if_pos hstate] at hkeeps
    refine Bool.not_eq_false _ |>.mp fun hresult => ?_
    refine h.not_keeps_startAccept ?_ hspec hresult hkeeps
    intro haccepting
    rw [haccepting] at hstate
    simp at hstate
  | _ => trivial

/-- In a run of the acceptor, it keeps at all times what it owes its clients if and only if every
request that finds the speculative flag set finds the backlog empty. -/
theorem accept_requests_iff (as : List (RequestAction H P E)) :
    (machine H P E).Along (fun _ _ σ' => σ'.Keeps) {} as ↔
      (machine H P E).Along (fun σ a _ => σ.FindsNone a) {} as := by
  refine Machine.along_iff_of_invariant (I := Inv) Inv.init ?_ ?_
  · intro σ a σ' h hσ'
    exact h.keeps_step_iff hσ'
  · intro σ a σ' h hσ' hkeeps
    exact h.step ((h.keeps_step_iff hσ').mp hkeeps) hσ'

/-- A notification comes before the first request, which then accepts a connection at once. Its
handler is called, but the acceptor stays in `kAccepting`: the next request is refused as already in
progress, and the next notification has no handler to call. -/
theorem accept_requests_accepted_at_once :
    ∃ σ : BasicAcceptorSocket ℕ ℕ ℕ, (machine ℕ ℕ ℕ).Reachable σ ∧
      σ.handlers = [7] ∧ σ.called = [7] ∧
      σ.acceptorSockstate = .kAccepting ∧ σ.onAcceptComplete = none ∧
      (σ.acceptAsyncInternal ⟨8, 2, none⟩ true .wouldBlock).2 = .error .acceptOperationOngoing ∧
      ¬ σ.Keeps := by
  have hσ := Machine.reachableIn_get_run (M := machine ℕ ℕ ℕ) (C := Machine.Always)
    (l := [.listen true, .event, .acceptAsync ⟨7, 1, none⟩ true .connection, .immediate]) rfl
    (by decide)
  refine ⟨_, hσ, by decide, by decide, by decide, by decide, by decide, fun hkeeps => ?_⟩
  exact hkeeps.renewable (by decide) ⟨8, 2, none⟩ true .wouldBlock (by decide)

end BasicAcceptorSocket

end Asrt.Socket.Acceptor
