import Asrt.ClientServer.Connection
import Mathlib.Algebra.Ring.Nat
import Mathlib.Data.List.Basic

/-!
# The outbox of a validated connection

`Send()` leaves its message to the strand, which puts it into `outbox_` and starts an asynchronous
send if none is going on; the completion handler of each send starts the next one. `SendSync()`
writes to the socket at once. `Sender` is a validated connection with the jobs of its strand and the
completion handlers. What these do to `outbox_`, which has no lock, is cut into steps; `SendSync()`
holds the mutex of the socket and is one step.

The completion handlers do not run on the strand. One that has removed its message may be overtaken
by a job of the strand, and one may remove the last message behind the back of a job that has
already seen it: a message is sent twice, or not at all. `SendSync()` fails if an asynchronous send
is going on, and the connection is closed for it. It overtakes the messages in `outbox_` and on the
strand. And `SendAll()` does not send the rest of a message that the kernel takes in part: it fails,
or sends what lies behind the message.

An asynchronous send that the kernel has not taken as a whole goes on when the socket's operation is
posted for `EPOLLOUT`. An event that the reactor handles while the operation is calling a completion
handler does not post it again. Such a handler may stay in `Dispatch()`, which executes the jobs of
the strand, and the next send with them.

## Main results

- `outbox_delivery`: if no completion handler overlaps a job of the strand, no event is handled
  while a completion handler is called in place, each `SendSync()` is called when all messages
  before it are written, and the kernel takes its message as a whole, then all messages are written
  in order and the connection is not closed.
- `outbox_delivery_ongoing`: a `SendSync()` closes the connection while a send is going on.
-/

namespace Asrt.ClientServer

open ToMathlib Socket.ByteStream

/-- The jobs of `strand_`. -/
inductive StrandJob
  /-- `DoSendMessage2()` -/
  | doSendMessage2 (message : List UInt8)
  /-- `DoSendNextMessage()` -/
  | doSendNextMessage
  /-- `socket_.Close()` -/
  | close
deriving DecidableEq

/-- What is left of the job of the strand that is being executed. -/
inductive Running
  /-- `DoSendMessage2()` has looked whether `outbox_` is empty. -/
  | push (message : List UInt8) (sendInProgress : Bool)
  /-- `DoSendNextMessage()` is called. -/
  | sendNext
deriving DecidableEq

/-- A completion handler of `SendAsync()` that has not returned. -/
structure Completion where
  result : Except SockErrorCode Unit
  /-- The socket's operation calls it. If not, it was posted to the executor. -/
  inPlace : Bool
  /-- `pop_front()` is executed. -/
  popped : Bool := false
deriving DecidableEq

/-- What is known of the event that `send_operation_` waits for. -/
inductive WriteEvent
  | absent
  /-- The kernel reports it as soon as it has room. -/
  | due
  /-- The socket's operation will find it. -/
  | captured
deriving DecidableEq

/-- A validated connection with the jobs of its strand. -/
structure Sender where
  /-- `outbox_` -/
  outbox : List (List UInt8) := []
  /-- `socket_` -/
  socket : Outgoing := {}
  /-- The jobs of `strand_`, in order. -/
  strand : List StrandJob := []
  running : Option Running := none
  completions : List Completion := []
  writeEvent : WriteEvent := .absent
  /-- The socket's operation is calling the completion handler of a receive. -/
  receiving : Bool := false
  /-- A completion handler that it has called is in `Dispatch()`. -/
  dispatching : Bool := false
  /-- The messages that were passed to `Send()` and `SendSync()`. -/
  accepted : List (List UInt8) := []

/-- The steps of a sender. The results are those of `send()`. -/
inductive SenderAction
  | send (message : List UInt8)
  | sendSync (message : List UInt8) (t : Transmission)
  /-- The first job of the strand starts. -/
  | runStrand
  /-- `DoSendMessage2()` puts its message into `outbox_`. -/
  | push
  /-- `DoSendNextMessage()` -/
  | sendNext (result : SendResult)
  /-- The reactor handles the event that is due. -/
  | edge
  /-- The socket's operation is posted for another event, and there is room as well. -/
  | event
  /-- The socket's operation goes on with `send_operation_`. -/
  | perform (result : SendResult)
  /-- The socket's operation calls the completion handler of a receive. -/
  | receive
  /-- That handler returns. -/
  | received
  /-- A completion handler executes `pop_front()`. -/
  | pop (completion : Completion)
  /-- The rest of a completion handler, up to its `Dispatch()`. -/
  | finish (completion : Completion)
  /-- The `Dispatch()` of a completion handler that the socket's operation has called returns. -/
  | dispatched

/-- The steps that nobody calls for. -/
def SenderAction.IsInternal : SenderAction → Prop
  | runStrand | push | sendNext _ | edge | perform _ | received | pop _ | finish _
  | dispatched => True
  | send _ | sendSync _ _ | event | receive => False

namespace Sender

variable (identity : Identity)

/-- The socket's operation has released its lock to call a completion handler. -/
def InCallback (s : Sender) : Prop :=
  s.receiving = true ∨ s.dispatching = true ∨ ∃ c ∈ s.completions, c.inPlace = true

instance (s : Sender) : Decidable s.InCallback := inferInstanceAs (Decidable (_ ∨ _ ∨ _))

/-- `Close()` -/
def close (s : Sender) : Sender := { s with strand := s.strand ++ [.close] }

/-- `SendSync()` -/
def sendSync (s : Sender) (message : List UInt8) (t : Transmission) : Sender :=
  let (socket, result) := s.socket.sendSync message t
  let s := { s with socket }
  match result with
  | none | some (.ok _) => s
  | some (.error ec) =>
    match identity with
    | .kClient =>
      -- a client keeps the message for its next connection
      if ec.isUnconnected then { s with outbox := s.outbox ++ [message] } else s.close
    | .kServer => s.close

/-- A job of the strand starts. `DoSendMessage2()` looks whether a send is in progress. -/
def start (s : Sender) : StrandJob → Sender
  | .doSendMessage2 message => { s with running := some (.push message !s.outbox.isEmpty) }
  | .doSendNextMessage => { s with running := some .sendNext }
  | .close => { s with socket := s.socket.close }

/-- The rest of `SendAsync()` or of `HandleSend()` after `send()`. -/
def settle (s : Sender) (inPlace : Bool) : Outgoing × Option (Except SockErrorCode Unit) → Sender
  | (socket, none) => { s with socket, writeEvent := .due }
  | (socket, some result) =>
    { s with socket, completions := s.completions ++ [{ result, inPlace }] }

/-- The rest of a completion handler behind `pop_front()`. `Dispatch()` may execute its job, and
those behind it, before it returns. -/
def finish (s : Sender) (completion : Completion) : Sender :=
  match completion.result with
  | .ok _ =>
    if s.outbox.isEmpty then s
    else { s with
      strand := s.strand ++ [.doSendNextMessage]
      dispatching := s.dispatching || completion.inPlace }
  -- `HandleCommunicationError()`
  | .error _ => { s with socket := s.socket.close }

/-- Execute a step. Nothing is known of what happens to an empty `outbox_` by `front()` and
`pop_front()`. -/
def step (s : Sender) : SenderAction → Option Sender
  | .send message =>
    some { s with
      strand := s.strand ++ [.doSendMessage2 message], accepted := s.accepted ++ [message] }
  | .sendSync message t =>
    some (sendSync identity { s with accepted := s.accepted ++ [message] } message t)
  | .runStrand =>
    match s.running, s.strand with
    | none, job :: strand => some (start { s with strand } job)
    | some _, _ | none, [] => none
  | .push =>
    match s.running with
    | some (.push message sendInProgress) =>
      some { s with
        outbox := s.outbox ++ [message]
        running := if sendInProgress then none else some .sendNext }
    | some .sendNext | none => none
  | .sendNext result =>
    match s.running, s.outbox with
    | some .sendNext, message :: _ =>
      some (settle { s with running := none } false (s.socket.sendAsync message result))
    | some .sendNext, [] | some (.push _ _), _ | none, _ => none
  | .edge =>
    match s.writeEvent with
    | .due => some { s with writeEvent := if s.InCallback then .absent else .captured }
    | .absent | .captured => none
  | .event =>
    if s.socket.sendOperation.isSome ∧ ¬ s.InCallback then some { s with writeEvent := .captured }
    else none
  | .perform result =>
    match s.writeEvent, s.socket.sendOperation with
    | .captured, some buf =>
      if s.socket.isConnected ∧ ¬ s.InCallback then
        some (settle { s with writeEvent := .absent } true (s.socket.performSend buf result))
      else none
    | .captured, none | .absent, _ | .due, _ => none
  | .receive => if s.InCallback then none else some { s with receiving := true }
  | .received => if s.receiving then some { s with receiving := false } else none
  | .pop completion =>
    match s.outbox with
    | _ :: outbox =>
      if completion ∈ s.completions ∧ completion.popped = false then
        some { s with
          outbox
          completions := s.completions.erase completion ++ [{ completion with popped := true }] }
      else none
    | [] => none
  | .finish completion =>
    if completion ∈ s.completions ∧ completion.popped = true then
      some (finish { s with completions := s.completions.erase completion } completion)
    else none
  | .dispatched => if s.dispatching then some { s with dispatching := false } else none

/-- A connection starts to send when it is validated. -/
def machine : Machine Sender SenderAction where
  init s := s = {}
  step := step identity

/-- The socket reports no error. -/
def NoKernelError (_ : Sender) : SenderAction → Prop
  | .sendSync _ t => ∀ result ∈ t.results, result.isError = false
  | .sendNext result | .perform result => result.isError = false
  | .send _ | .runStrand | .push | .edge | .event | .receive | .received | .pop _ | .finish _
  | .dispatched => True

instance (s : Sender) : (a : SenderAction) → Decidable (s.NoKernelError a)
  | .sendSync _ t => inferInstanceAs (Decidable (∀ result ∈ t.results, _))
  | .sendNext _ | .perform _ => inferInstanceAs (Decidable (_ = _))
  | .send _ | .runStrand | .push | .edge | .event | .receive | .received | .pop _ | .finish _
  | .dispatched => inferInstanceAs (Decidable True)

/-- A completion handler and a job of the strand do not overlap, and the event for the send is not
handled during a call of a completion handler. `SendSync()` finds no message that is not written
yet, and its message is taken as a whole; a message that is written stays in `outbox_` until its
completion handler is called. -/
def Undisturbed (s : Sender) : SenderAction → Prop
  | .sendSync message t =>
    s.strand = [] ∧ s.running = none ∧ s.socket.sendOperation = none ∧
      s.outbox.length ≤ s.completions.countP (fun c => !c.popped) ∧
      t.results.head? = some (.bytes message.length)
  | .runStrand => ∀ c ∈ s.completions, c.popped = false
  | .pop _ => s.running = none
  | .edge => ¬ s.InCallback
  | .send _ | .push | .sendNext _ | .event | .perform _ | .receive | .received | .finish _
  | .dispatched => True

instance (s : Sender) : (a : SenderAction) → Decidable (s.Undisturbed a)
  | .sendSync _ _ => inferInstanceAs (Decidable (_ ∧ _ ∧ _ ∧ _ ∧ _))
  | .runStrand => inferInstanceAs (Decidable (∀ c ∈ s.completions, _))
  | .pop _ => inferInstanceAs (Decidable (_ = _))
  | .edge => inferInstanceAs (Decidable (¬ _))
  | .send _ | .push | .sendNext _ | .event | .perform _ | .receive | .received | .finish _
  | .dispatched => inferInstanceAs (Decidable True)

/-- Nothing is left to do. -/
def Done (s : Sender) : Prop :=
  s.strand = [] ∧ s.running = none ∧ s.completions = [] ∧ s.socket.sendOperation = none

/-- The messages are written as they were accepted, one after the other, and the connection is not
closed. If nobody calls and the kernel takes what it is given, everything is written after some
steps. -/
def Delivers (s : Sender) : Prop :=
  s.socket.written <+: s.accepted.flatten ∧
    s.socket.isConnected = true ∧
    (s.Done → s.socket.written = s.accepted.flatten) ∧
    ∃ as s', (∀ a ∈ as, a.IsInternal) ∧ (machine identity).run NoKernelError s as = some s' ∧
      s'.Done ∧ s'.socket.written = s.accepted.flatten

/-! ## The invariant -/

variable {identity} {s s' : Sender} {a : SenderAction} {front : List UInt8}

/-- The messages that jobs of the strand are to put into `outbox_`. -/
def StrandJob.message? : StrandJob → Option (List UInt8)
  | .doSendMessage2 message => some message
  | .doSendNextMessage | .close => none

/-- The bytes of the messages that wait on the strand. -/
def strandBytes (strand : List StrandJob) : List UInt8 :=
  (strand.filterMap StrandJob.message?).flatten

@[simp]
theorem strandBytes_nil : strandBytes [] = [] := rfl

@[simp]
theorem strandBytes_doSendMessage2 (message : List UInt8) (strand : List StrandJob) :
    strandBytes (.doSendMessage2 message :: strand) = message ++ strandBytes strand := by
  simp [strandBytes, StrandJob.message?]

@[simp]
theorem strandBytes_doSendNextMessage (strand : List StrandJob) :
    strandBytes (.doSendNextMessage :: strand) = strandBytes strand := by
  simp [strandBytes, List.filterMap_cons, StrandJob.message?]

theorem strandBytes_append (strand strand' : List StrandJob) :
    strandBytes (strand ++ strand') = strandBytes strand ++ strandBytes strand' := by
  simp [strandBytes]

/-- The bytes of the message that `DoSendMessage2()` has in its hands. -/
def runningBytes : Option Running → List UInt8
  | some (.push message _) => message
  | some .sendNext | none => []

/-- All jobs are to send a message. -/
def AllSend (strand : List StrandJob) : Prop :=
  ∀ job ∈ strand, ∃ message, job = .doSendMessage2 message

theorem AllSend.append {strand strand' : List StrandJob} (h : AllSend strand)
    (h' : AllSend strand') :
    AllSend (strand ++ strand') := by
  intro job hjob
  rcases List.mem_append.mp hjob with hjob | hjob
  · exact h job hjob
  · exact h' job hjob

theorem allSend_singleton (message : List UInt8) : AllSend [.doSendMessage2 message] := by
  intro job hjob
  exact ⟨message, List.mem_singleton.mp hjob⟩

theorem AllSend.tail {job : StrandJob} {strand : List StrandJob} (h : AllSend (job :: strand)) :
    AllSend strand :=
  fun d hd => h d (List.mem_cons_of_mem _ hd)

/-- The strand is not about to send, and its job knows whether a send is in progress. -/
def Sees (sendInProgress : Bool) : Option Running → Prop
  | some (.push _ seen) => seen = sendInProgress
  | some .sendNext => False
  | none => True

/-- What becomes of the messages in `outbox_`, and the bytes of them that are not written. -/
inductive Outbox (s : Sender) : List UInt8 → Prop
  /-- There is none. -/
  | idle (houtbox : s.outbox = []) (hoperation : s.socket.sendOperation = none)
      (hcompletions : s.completions = []) (hrunning : Sees false s.running)
      (hstrand : AllSend s.strand) : Outbox s []
  /-- The first one is being sent, and the event for its rest is not lost. -/
  | ongoing {m rest : List UInt8} {ms : List (List UInt8)} (houtbox : s.outbox = m :: ms)
      (hoperation : s.socket.sendOperation = some rest) (hevent : s.writeEvent ≠ .absent)
      (hcompletions : s.completions = []) (hrunning : Sees true s.running)
      (hstrand : AllSend s.strand) : Outbox s (rest ++ ms.flatten)
  /-- The first one is written, and its completion handler is to be called. -/
  | written {m : List UInt8} {ms : List (List UInt8)} {inPlace : Bool}
      (houtbox : s.outbox = m :: ms) (hoperation : s.socket.sendOperation = none)
      (hcompletions : s.completions = [⟨.ok (), inPlace, false⟩]) (hrunning : Sees true s.running)
      (hstrand : AllSend s.strand) : Outbox s ms.flatten
  /-- A written one is removed by its completion handler. -/
  | popped {ms : List (List UInt8)} {inPlace : Bool} (houtbox : s.outbox = ms)
      (hoperation : s.socket.sendOperation = none)
      (hcompletions : s.completions = [⟨.ok (), inPlace, true⟩]) (hrunning : s.running = none)
      (hstrand : AllSend s.strand) : Outbox s ms.flatten
  /-- The first one is to be sent by a job of the strand. -/
  | next {m : List UInt8} {ms : List (List UInt8)} {before after : List StrandJob}
      (houtbox : s.outbox = m :: ms) (hoperation : s.socket.sendOperation = none)
      (hcompletions : s.completions = []) (hrunning : Sees true s.running)
      (hstrand : s.strand = before ++ .doSendNextMessage :: after)
      (hbefore : AllSend before) (hafter : AllSend after) : Outbox s (m :: ms).flatten
  /-- The strand is about to send the first one. -/
  | sending {m : List UInt8} {ms : List (List UInt8)} (houtbox : s.outbox = m :: ms)
      (hoperation : s.socket.sendOperation = none) (hcompletions : s.completions = [])
      (hrunning : s.running = some .sendNext) (hstrand : AllSend s.strand) :
      Outbox s (m :: ms).flatten

/-- The connection is not closed, and the bytes that are not written are those of the last
messages. -/
structure Inv (s : Sender) (front : List UInt8) : Prop where
  connected : s.socket.isConnected = true
  outbox : Outbox s front
  written : s.socket.written ++ (front ++ (runningBytes s.running ++ strandBytes s.strand)) =
    s.accepted.flatten

theorem inv_init : Inv {} [] where
  connected := rfl
  outbox := .idle rfl rfl rfl trivial (by simp [AllSend])
  written := rfl

/-! ## The calls -/

theorem Inv.send (h : Inv s front) (message : List UInt8) :
    Inv { s with
      strand := s.strand ++ [.doSendMessage2 message]
      accepted := s.accepted ++ [message] } front := by
  obtain ⟨hconnected, houtbox, hwritten⟩ := h
  -- the new job is the last one, behind a `DoSendNextMessage()` if there is one
  have hsend := allSend_singleton message
  refine ⟨hconnected, ?_, ?_⟩
  · cases houtbox with
    | idle houtbox hoperation hcompletions hrunning hstrand =>
      exact .idle houtbox hoperation hcompletions hrunning (hstrand.append hsend)
    | ongoing houtbox hoperation hevent hcompletions hrunning hstrand =>
      exact .ongoing houtbox hoperation hevent hcompletions hrunning (hstrand.append hsend)
    | written houtbox hoperation hcompletions hrunning hstrand =>
      exact .written houtbox hoperation hcompletions hrunning (hstrand.append hsend)
    | popped houtbox hoperation hcompletions hrunning hstrand =>
      exact .popped houtbox hoperation hcompletions hrunning (hstrand.append hsend)
    | next houtbox hoperation hcompletions hrunning hstrand hbefore hafter =>
      refine .next houtbox hoperation hcompletions hrunning ?_ hbefore (hafter.append hsend)
      simp [hstrand]
    | sending houtbox hoperation hcompletions hrunning hstrand =>
      exact .sending houtbox hoperation hcompletions hrunning (hstrand.append hsend)
  · simp only [strandBytes_append, List.flatten_append, ← hwritten]
    simp

/-- A message that the kernel takes as a whole. -/
theorem sendSync_eq {m : List UInt8} (hconnected : s.socket.isConnected = true)
    (hidle : s.socket.sendOperation = none) {t : Transmission}
    (ht : t.results.head? = some (.bytes m.length)) :
    sendSync identity s m t =
      { s with socket := { s.socket with written := s.socket.written ++ m } } := by
  obtain ⟨results, beyond⟩ := t
  -- the loop of `SendAll()` ends after the first call of `send()`
  obtain ⟨rest, rfl⟩ := List.head?_eq_some_iff.mp ht
  simp [sendSync, Outgoing.sendSync, Outgoing.checkSendPossible, sendAll_whole, hconnected, hidle]

/-- A `SendSync()` that finds everything written keeps the invariant. -/
theorem Inv.sendSync (h : Inv s front) {message : List UInt8} {t : Transmission}
    (hguard : s.Undisturbed (.sendSync message t)) :
    Inv (Sender.sendSync identity { s with accepted := s.accepted ++ [message] } message t)
      front := by
  obtain ⟨hempty, hrunning, hidle, hfront, hwhole⟩ := hguard
  obtain ⟨hconnected, houtbox, hwritten⟩ := h
  rw [sendSync_eq (s := { s with accepted := s.accepted ++ [message] }) hconnected hidle hwhole]
  rw [hempty, hrunning] at hwritten
  -- nothing is left in front of the message
  have hwritten' : front = [] → s.socket.written ++ message ++
      (front ++ (runningBytes s.running ++ strandBytes s.strand)) =
        (s.accepted ++ [message]).flatten := by
    intro hnil
    simp [hempty, hrunning, ← hwritten, hnil, runningBytes]
  cases houtbox with
  | idle houtbox hoperation hcompletions hsees hall =>
    exact ⟨hconnected, .idle houtbox hoperation hcompletions hsees hall, hwritten' rfl⟩
  | ongoing _ hoperation =>
    rw [hidle] at hoperation
    cases hoperation
  | @written m ms _ houtbox hoperation hcompletions hsees hall =>
    -- the only message in the outbox is written
    have hms : ms = [] := by
      rw [houtbox, hcompletions] at hfront
      simpa using hfront
    exact ⟨hconnected, .written houtbox hoperation hcompletions hsees hall,
      hwritten' (by simp [hms])⟩
  | @popped ms _ houtbox hoperation hcompletions hnone hall =>
    have hms : ms = [] := by
      rw [houtbox, hcompletions] at hfront
      simpa using hfront
    exact ⟨hconnected, .popped houtbox hoperation hcompletions hnone hall,
      hwritten' (by simp [hms])⟩
  | next _ _ _ _ hnext =>
    rw [hempty] at hnext
    simp at hnext
  | sending _ _ _ hsending =>
    rw [hrunning] at hsending
    cases hsending

/-! ## The jobs of the strand -/

/-- `DoSendMessage2()` sees whether there is a message in the outbox. -/
theorem sees_start {message : List UInt8} {sendInProgress : Bool}
    (houtbox : (!s.outbox.isEmpty) = sendInProgress) :
    Sees sendInProgress (start s (.doSendMessage2 message)).running := houtbox

/-- A message goes from the strand into the hands of `DoSendMessage2()`. -/
theorem written_start {message : List UInt8} {strand : List StrandJob} (hrunning : s.running = none)
    (hstrand : s.strand = .doSendMessage2 message :: strand)
    (hwritten : s.socket.written ++ (front ++ (runningBytes s.running ++ strandBytes s.strand)) =
      s.accepted.flatten) :
    s.socket.written ++ (front ++ (message ++ strandBytes strand)) = s.accepted.flatten := by
  rw [← hwritten, hrunning, hstrand]
  simp [runningBytes]

/-- A job of the strand that starts keeps the invariant, if no completion handler overlaps it. -/
theorem Inv.runStrand (h : Inv s front) {job : StrandJob} {strand : List StrandJob}
    (hrunning : s.running = none) (hjob : s.strand = job :: strand)
    (hguard : s.Undisturbed .runStrand) : Inv (start { s with strand } job) front := by
  obtain ⟨hconnected, houtbox, hwritten⟩ := h
  have hsends : AllSend s.strand → AllSend strand ∧ ∃ message, job = .doSendMessage2 message := by
    intro hall
    rw [hjob] at hall
    exact ⟨hall.tail, hall job List.mem_cons_self⟩
  cases houtbox with
  | idle houtbox hoperation hcompletions _ hstrand =>
    obtain ⟨hall, message, rfl⟩ := hsends hstrand
    exact ⟨hconnected, .idle houtbox hoperation hcompletions (sees_start (by simp [houtbox])) hall,
      written_start (s := s) hrunning hjob hwritten⟩
  | ongoing houtbox hoperation hevent hcompletions _ hstrand =>
    obtain ⟨hall, message, rfl⟩ := hsends hstrand
    exact ⟨hconnected, .ongoing houtbox hoperation hevent hcompletions
      (sees_start (by simp [houtbox])) hall, written_start (s := s) hrunning hjob hwritten⟩
  | written houtbox hoperation hcompletions _ hstrand =>
    obtain ⟨hall, message, rfl⟩ := hsends hstrand
    exact ⟨hconnected, .written houtbox hoperation hcompletions (sees_start (by simp [houtbox]))
      hall, written_start (s := s) hrunning hjob hwritten⟩
  | popped _ _ hcompletions =>
    -- the completion handler is still running
    have hpopped := hguard _ (hcompletions ▸ List.mem_singleton_self _)
    cases hpopped
  | @next m ms before after houtbox hoperation hcompletions _ hstrand hbefore hafter =>
    rw [hjob] at hstrand
    cases before with
    | nil =>
      -- the message at the front of the outbox is to be sent
      obtain ⟨rfl, rfl⟩ := List.cons.inj hstrand
      refine ⟨hconnected, .sending houtbox hoperation hcompletions rfl hafter, ?_⟩
      rw [hjob, hrunning] at hwritten
      simpa [start, runningBytes] using hwritten
    | cons d before =>
      obtain ⟨rfl, rfl⟩ := List.cons.inj hstrand
      obtain ⟨message, rfl⟩ := hbefore _ List.mem_cons_self
      exact ⟨hconnected, .next houtbox hoperation hcompletions (sees_start (by simp [houtbox])) rfl
        hbefore.tail hafter, written_start (s := s) hrunning hjob hwritten⟩
  | sending _ _ _ hsending =>
    rw [hrunning] at hsending
    cases hsending

/-- A message goes from the hands of `DoSendMessage2()` to the end of the outbox. -/
theorem written_push {message : List UInt8} {sendInProgress : Bool} {running : Option Running}
    (hrunning : s.running = some (.push message sendInProgress)) (hnone : runningBytes running = [])
    (hwritten : s.socket.written ++ (front ++ (runningBytes s.running ++ strandBytes s.strand)) =
      s.accepted.flatten) :
    s.socket.written ++ ((front ++ message) ++ (runningBytes running ++ strandBytes s.strand)) =
      s.accepted.flatten := by
  rw [← hwritten, hrunning, hnone]
  simp [runningBytes]

/-- `DoSendMessage2()` puts its message into the outbox, and sends it if there was none. -/
theorem Inv.push (h : Inv s front) {message : List UInt8} {sendInProgress : Bool}
    (hrunning : s.running = some (.push message sendInProgress)) :
    Inv { s with
      outbox := s.outbox ++ [message]
      running := if sendInProgress then none else some .sendNext } (front ++ message) := by
  obtain ⟨hconnected, houtbox, hwritten⟩ := h
  have hsees : ∀ b, Sees b s.running → sendInProgress = b := by
    intro b hb
    rwa [hrunning] at hb
  cases houtbox with
  | idle houtbox hoperation hcompletions hb hstrand =>
    obtain rfl := hsees _ hb
    have hfront : [] ++ message = [message].flatten := (List.append_nil message).symm
    refine ⟨hconnected, ?_, written_push (s := s) hrunning rfl hwritten⟩
    rw [hfront]
    exact .sending (by simp [houtbox]) hoperation hcompletions rfl hstrand
  | @ongoing m rest ms houtbox hoperation hevent hcompletions hb hstrand =>
    obtain rfl := hsees _ hb
    have hfront : rest ++ ms.flatten ++ message = rest ++ (ms ++ [message]).flatten := by simp
    refine ⟨hconnected, ?_, written_push (s := s) hrunning rfl hwritten⟩
    rw [hfront]
    exact .ongoing (m := m) (by simp [houtbox]) hoperation hevent hcompletions trivial hstrand
  | @written m ms _ houtbox hoperation hcompletions hb hstrand =>
    obtain rfl := hsees _ hb
    have hfront : ms.flatten ++ message = (ms ++ [message]).flatten := by simp
    refine ⟨hconnected, ?_, written_push (s := s) hrunning rfl hwritten⟩
    rw [hfront]
    exact .written (m := m) (by simp [houtbox]) hoperation hcompletions trivial hstrand
  | popped _ _ _ hnone =>
    rw [hrunning] at hnone
    cases hnone
  | @next m ms before after houtbox hoperation hcompletions hb hstrand hbefore hafter =>
    obtain rfl := hsees _ hb
    have hfront : (m :: ms).flatten ++ message = (m :: (ms ++ [message])).flatten := by simp
    refine ⟨hconnected, ?_, written_push (s := s) hrunning rfl hwritten⟩
    rw [hfront]
    exact .next (by simp [houtbox]) hoperation hcompletions trivial hstrand hbefore hafter
  | sending _ _ _ hsending =>
    rw [hrunning] at hsending
    cases hsending

/-- `send()` takes what is left of the first message, or a part of it. -/
theorem exists_inv_settle {m buf : List UInt8} {ms : List (List UInt8)} {result : SendResult}
    (inPlace : Bool) (hconnected : s.socket.isConnected = true) (houtbox : s.outbox = m :: ms)
    (hcompletions : s.completions = []) (hrunning : Sees true s.running)
    (hstrand : AllSend s.strand)
    (hwritten : s.socket.written ++
      (buf ++ ms.flatten ++ (runningBytes s.running ++ strandBytes s.strand)) = s.accepted.flatten)
    (hresult : result.isError = false) :
    ∃ front, Inv (settle s inPlace (s.socket.performSend buf result)) front := by
  rcases s.socket.performSend_of_not_isError buf hresult with hall | ⟨taken, rest, rfl, hpart⟩
  · rw [hall]
    have hposted : s.completions ++ [⟨.ok (), inPlace, false⟩] = [⟨.ok (), inPlace, false⟩] := by
      rw [hcompletions, List.nil_append]
    refine ⟨ms.flatten, hconnected, .written houtbox rfl hposted hrunning hstrand, ?_⟩
    simpa [settle] using hwritten
  · rw [hpart]
    refine ⟨rest ++ ms.flatten, hconnected,
      .ongoing houtbox rfl nofun hcompletions hrunning hstrand, ?_⟩
    simpa [settle] using hwritten

/-- `DoSendNextMessage()` keeps the invariant. -/
theorem Inv.sendNext (h : Inv s front) {message : List UInt8} {outbox : List (List UInt8)}
    {result : SendResult} (hrunning : s.running = some .sendNext)
    (hfirst : s.outbox = message :: outbox) (hresult : result.isError = false) :
    ∃ front', Inv (settle { s with running := none } false (s.socket.sendAsync message result))
      front' := by
  obtain ⟨hconnected, houtbox, hwritten⟩ := h
  cases houtbox with
  | idle _ _ _ hb | ongoing _ _ _ _ hb | written _ _ _ hb | next _ _ _ hb =>
    rw [hrunning] at hb
    exact hb.elim
  | popped _ _ _ hnone =>
    rw [hrunning] at hnone
    cases hnone
  | sending houtbox hoperation hcompletions _ hstrand =>
    obtain ⟨rfl, rfl⟩ := List.cons.inj (hfirst.symm.trans houtbox)
    have hasync : s.socket.sendAsync message result = s.socket.performSend message result := by
      simp [Outgoing.sendAsync, hoperation]
    rw [hasync]
    refine exists_inv_settle (s := { s with running := none }) false hconnected hfirst hcompletions
      trivial hstrand ?_ hresult
    rw [← hwritten, hrunning]
    simp [runningBytes]

/-! ## The operation of the socket -/

/-- The events and the calls of completion handlers matter to a send only if its own event is
lost. -/
theorem Inv.setEvents (h : Inv s front) {writeEvent : WriteEvent} (receiving dispatching : Bool)
    (hevent : s.writeEvent ≠ .absent → writeEvent ≠ .absent) :
    Inv { s with writeEvent, receiving, dispatching } front := by
  obtain ⟨hconnected, houtbox, hwritten⟩ := h
  refine ⟨hconnected, ?_, hwritten⟩
  cases houtbox with
  | idle houtbox hoperation hcompletions hrunning hstrand =>
    exact .idle houtbox hoperation hcompletions hrunning hstrand
  | ongoing houtbox hoperation hdue hcompletions hrunning hstrand =>
    exact .ongoing houtbox hoperation (hevent hdue) hcompletions hrunning hstrand
  | written houtbox hoperation hcompletions hrunning hstrand =>
    exact .written houtbox hoperation hcompletions hrunning hstrand
  | popped houtbox hoperation hcompletions hrunning hstrand =>
    exact .popped houtbox hoperation hcompletions hrunning hstrand
  | next houtbox hoperation hcompletions hrunning hstrand hbefore hafter =>
    exact .next houtbox hoperation hcompletions hrunning hstrand hbefore hafter
  | sending houtbox hoperation hcompletions hrunning hstrand =>
    exact .sending houtbox hoperation hcompletions hrunning hstrand

/-- An event that is not handled during a call of a completion handler is not lost. -/
theorem Inv.edge (h : Inv s front) (hguard : s.Undisturbed .edge)
    (hstep : s.step identity .edge = some s') : Inv s' front := by
  simp only [Sender.step] at hstep
  split at hstep
  · obtain rfl := Option.some.inj hstep
    rw [if_neg hguard]
    exact h.setEvents s.receiving s.dispatching fun _ => nofun
  all_goals cases hstep

theorem Inv.event (h : Inv s front) (hstep : s.step identity .event = some s') : Inv s' front := by
  simp only [Sender.step] at hstep
  split_ifs at hstep
  obtain rfl := Option.some.inj hstep
  exact h.setEvents s.receiving s.dispatching fun _ => nofun

/-- The send goes on. -/
theorem Inv.perform (h : Inv s front) {result : SendResult} (hresult : result.isError = false)
    (hstep : s.step identity (.perform result) = some s') : ∃ front', Inv s' front' := by
  simp only [Sender.step] at hstep
  split at hstep
  · rename_i hbuf
    split_ifs at hstep
    obtain rfl := Option.some.inj hstep
    obtain ⟨hconnected, houtbox, hwritten⟩ := h
    cases houtbox with
    -- the socket has an operation only while a send is ongoing
    | idle _ hoperation | written _ hoperation | popped _ hoperation | next _ hoperation
    | sending _ hoperation =>
      rw [hbuf] at hoperation
      cases hoperation
    | ongoing houtbox hoperation _ hcompletions hrunning hstrand =>
      obtain rfl := Option.some.inj (hbuf.symm.trans hoperation)
      exact exists_inv_settle (s := { s with writeEvent := .absent }) true hconnected houtbox
        hcompletions hrunning hstrand hwritten hresult
  all_goals cases hstep

/-! ## The completion handlers -/

/-- A completion handler removes its message from the outbox. -/
theorem Inv.pop (h : Inv s front) {completion : Completion} {m : List UInt8}
    {outbox : List (List UInt8)} (hfirst : s.outbox = m :: outbox)
    (hmem : completion ∈ s.completions) (hpopped : completion.popped = false)
    (hguard : s.Undisturbed (.pop completion)) :
    Inv { s with
      outbox
      completions := s.completions.erase completion ++ [{ completion with popped := true }] }
      front := by
  obtain ⟨hconnected, houtbox, hwritten⟩ := h
  cases houtbox with
  -- only a message that is written has a completion handler
  | idle _ _ hcompletions | ongoing _ _ _ hcompletions | next _ _ hcompletions
  | sending _ _ hcompletions =>
    rw [hcompletions] at hmem
    cases hmem
  | @written _ _ inPlace houtbox hoperation hcompletions _ hstrand =>
    rw [hcompletions] at hmem
    obtain rfl := List.mem_singleton.mp hmem
    obtain ⟨-, rfl⟩ := List.cons.inj (hfirst.symm.trans houtbox)
    have hcompletions' : s.completions.erase ⟨.ok (), inPlace, false⟩ ++ [⟨.ok (), inPlace, true⟩] =
        [⟨.ok (), inPlace, true⟩] := by simp [hcompletions]
    exact ⟨hconnected, .popped rfl hoperation hcompletions' hguard hstrand, hwritten⟩
  | popped _ _ hcompletions =>
    rw [hcompletions] at hmem
    obtain rfl := List.mem_singleton.mp hmem
    cases hpopped

/-- The rest of a completion handler starts the next message, if there is one. -/
theorem Inv.finish (h : Inv s front) {completion : Completion} (hmem : completion ∈ s.completions)
    (hpopped : completion.popped = true) :
    Inv (Sender.finish { s with completions := s.completions.erase completion } completion)
      front := by
  obtain ⟨hconnected, houtbox, hwritten⟩ := h
  cases houtbox with
  | idle _ _ hcompletions | ongoing _ _ _ hcompletions | next _ _ hcompletions
  | sending _ _ hcompletions =>
    rw [hcompletions] at hmem
    cases hmem
  | written _ _ hcompletions =>
    rw [hcompletions] at hmem
    obtain rfl := List.mem_singleton.mp hmem
    cases hpopped
  | @popped ms inPlace houtbox hoperation hcompletions hrunning hstrand =>
    rw [hcompletions] at hmem
    obtain rfl := List.mem_singleton.mp hmem
    have herase : s.completions.erase ⟨.ok (), inPlace, true⟩ = [] := by simp [hcompletions]
    cases ms with
    | nil =>
      simp only [Sender.finish, houtbox, List.isEmpty_nil, if_true]
      exact ⟨hconnected, .idle rfl hoperation herase (hrunning ▸ trivial) hstrand, hwritten⟩
    | cons m ms =>
      simp only [Sender.finish, houtbox, List.isEmpty_cons, Bool.false_eq_true, if_false]
      refine ⟨hconnected, .next rfl hoperation herase (hrunning ▸ trivial) rfl hstrand ?_, ?_⟩
      · simp [AllSend]
      · simpa [strandBytes_append] using hwritten

/-! ## The steps -/

/-- Every step that meets the condition keeps the invariant. -/
theorem Inv.step (h : Inv s front) (herror : s.NoKernelError a) (hguard : s.Undisturbed a)
    (hstep : s.step identity a = some s') : ∃ front', Inv s' front' := by
  cases a with
  | send message =>
    obtain rfl := Option.some.inj hstep
    exact ⟨front, h.send message⟩
  | sendSync message t =>
    obtain rfl := Option.some.inj hstep
    exact ⟨front, h.sendSync hguard⟩
  | runStrand =>
    simp only [Sender.step] at hstep
    split at hstep
    · rename_i hrunning hstrand
      obtain rfl := Option.some.inj hstep
      exact ⟨front, h.runStrand hrunning hstrand hguard⟩
    all_goals cases hstep
  | push =>
    simp only [Sender.step] at hstep
    split at hstep
    · rename_i hrunning
      obtain rfl := Option.some.inj hstep
      exact ⟨_, h.push hrunning⟩
    all_goals cases hstep
  | sendNext result =>
    simp only [Sender.step] at hstep
    split at hstep
    · rename_i hrunning houtbox
      obtain rfl := Option.some.inj hstep
      exact h.sendNext hrunning houtbox herror
    all_goals cases hstep
  | edge => exact ⟨front, h.edge hguard hstep⟩
  | event => exact ⟨front, h.event hstep⟩
  | perform result => exact h.perform herror hstep
  | receive =>
    simp only [Sender.step] at hstep
    split_ifs at hstep
    obtain rfl := Option.some.inj hstep
    exact ⟨front, h.setEvents true s.dispatching id⟩
  | received =>
    simp only [Sender.step] at hstep
    split_ifs at hstep
    obtain rfl := Option.some.inj hstep
    exact ⟨front, h.setEvents false s.dispatching id⟩
  | pop completion =>
    simp only [Sender.step] at hstep
    split at hstep
    · rename_i houtbox
      split_ifs at hstep with hmem
      obtain rfl := Option.some.inj hstep
      exact ⟨front, h.pop houtbox hmem.1 hmem.2 hguard⟩
    · cases hstep
  | finish completion =>
    simp only [Sender.step] at hstep
    split_ifs at hstep with hmem
    obtain rfl := Option.some.inj hstep
    exact ⟨front, h.finish hmem.1 hmem.2⟩
  | dispatched =>
    simp only [Sender.step] at hstep
    split_ifs at hstep
    obtain rfl := Option.some.inj hstep
    exact ⟨front, h.setEvents s.receiving false id⟩

/-! ## Everything is written in the end -/

/-- What there is to do for a job of the strand. -/
def StrandJob.work : StrandJob → ℕ
  | .doSendMessage2 _ => 9
  | .doSendNextMessage => 3
  | .close => 1

/-- What there is to do for the job that is being executed. -/
def runningWork : Option Running → ℕ
  | some (.push _ _) => 8
  | some .sendNext => 2
  | none => 0

/-- What there is to do for a completion handler; if there is another message, it starts it. -/
def Completion.work (c : Completion) : ℕ := if c.popped then 5 else 1

/-- What there is to do for a send: its event has to be handled. -/
def sendWork : Option (List UInt8) → WriteEvent → ℕ
  | none, _ => 0
  | some _, .due => 3
  | some _, .captured | some _, .absent => 2

/-- What there is to do: a message on the strand has to be put into the outbox, a message of the
outbox has to be sent and completed. -/
def work (s : Sender) : ℕ :=
  (s.strand.map StrandJob.work).sum + runningWork s.running + 5 * s.outbox.length +
    sendWork s.socket.sendOperation s.writeEvent + (s.completions.map Completion.work).sum +
    s.receiving.toNat + s.dispatching.toNat

/-- The kernel can take what it is given. -/
theorem performSend_whole (o : Outgoing) (buf : List UInt8) :
    o.performSend buf (.bytes buf.length) =
      ({ o with sendOperation := none, written := o.written ++ buf }, some (.ok ())) := by
  simp [Outgoing.performSend]

/-- A step of the sender itself that does a part of what there is to do. -/
def Advances (identity : Identity) (s : Sender) : Prop :=
  ∃ a s', a.IsInternal ∧ s.NoKernelError a ∧ s.Undisturbed a ∧ s.step identity a = some s' ∧
    s'.accepted = s.accepted ∧ s'.work < s.work

/-- The first job of the strand can start. -/
theorem advances_runStrand (identity : Identity) {job : StrandJob} {strand : List StrandJob}
    (hrunning : s.running = none) (hstrand : s.strand = job :: strand)
    (hcompletions : ∀ c ∈ s.completions, c.popped = false) : s.Advances identity := by
  refine ⟨.runStrand, start { s with strand } job, trivial, trivial, hcompletions, ?_, ?_, ?_⟩
  · simp [Sender.step, hrunning, hstrand]
  · cases job with
    | doSendMessage2 | doSendNextMessage | close => rfl
  · cases job with
    | doSendMessage2 | doSendNextMessage | close =>
      simp only [work, start, hstrand, hrunning, List.map_cons, List.sum_cons, StrandJob.work,
        runningWork, Outgoing.close]
      omega

/-- `DoSendMessage2()` can go on. -/
theorem advances_push (identity : Identity) {message : List UInt8} {sendInProgress : Bool}
    (hrunning : s.running = some (.push message sendInProgress)) : s.Advances identity := by
  refine ⟨.push, { s with
    outbox := s.outbox ++ [message]
    running := if sendInProgress then none else some .sendNext }, trivial, trivial, trivial, ?_,
    rfl, ?_⟩
  · simp only [Sender.step, hrunning]
  · cases sendInProgress with
    | true | false =>
      simp only [work, hrunning, runningWork, List.length_append, List.length_singleton, if_true,
        Bool.false_eq_true, if_false]
      omega

/-- `DoSendNextMessage()` can send the message at the front of the outbox. -/
theorem advances_sendNext (identity : Identity) {message : List UInt8} {outbox : List (List UInt8)}
    (hrunning : s.running = some .sendNext) (houtbox : s.outbox = message :: outbox)
    (hoperation : s.socket.sendOperation = none) : s.Advances identity := by
  have hsend : s.socket.sendAsync message (.bytes message.length) =
      ({ s.socket with sendOperation := none, written := s.socket.written ++ message },
        some (.ok ())) := by
    simp [Outgoing.sendAsync, hoperation, performSend_whole]
  refine ⟨.sendNext (.bytes message.length), settle { s with running := none } false
    (s.socket.sendAsync message (.bytes message.length)), trivial, rfl, trivial, ?_, ?_, ?_⟩
  · simp only [Sender.step, hrunning, houtbox]
  · rw [hsend, settle]
  · rw [hsend, settle]
    simp only [work, hrunning, runningWork, hoperation, List.map_append, List.sum_append,
      List.map_singleton, List.sum_singleton, Completion.work, Bool.false_eq_true, if_false]
    omega

/-- The send can go on, after the event for it was handled. -/
theorem advances_ongoing (identity : Identity) {rest : List UInt8}
    (hconnected : s.socket.isConnected = true) (hoperation : s.socket.sendOperation = some rest)
    (hevent : s.writeEvent ≠ .absent) (hcompletions : s.completions = []) :
    s.Advances identity := by
  -- the completion handlers have to return first
  by_cases hreceiving : s.receiving = true
  · refine ⟨.received, { s with receiving := false }, trivial, trivial, trivial, ?_, rfl, ?_⟩
    · rw [Sender.step, if_pos hreceiving]
    · simp [work, hreceiving]
  by_cases hdispatching : s.dispatching = true
  · refine ⟨.dispatched, { s with dispatching := false }, trivial, trivial, trivial, ?_, rfl, ?_⟩
    · rw [Sender.step, if_pos hdispatching]
    · simp [work, hdispatching]
  have hcallback : ¬ s.InCallback := by
    simp [InCallback, hreceiving, hdispatching, hcompletions]
  cases hwrite : s.writeEvent with
  | absent => exact absurd hwrite hevent
  | due =>
    refine ⟨.edge, { s with writeEvent := .captured }, trivial, trivial, hcallback, ?_, rfl, ?_⟩
    · simp only [Sender.step, hwrite, if_neg hcallback]
    · simp [work, sendWork, hoperation, hwrite]
  | captured =>
    refine ⟨.perform (.bytes rest.length), settle { s with writeEvent := .absent } true
      (s.socket.performSend rest (.bytes rest.length)), trivial, rfl, trivial, ?_, ?_, ?_⟩
    · simp only [Sender.step, hwrite, hoperation]
      rw [if_pos ⟨hconnected, hcallback⟩]
    · rw [performSend_whole, settle]
    · rw [performSend_whole, settle]
      simp [work, sendWork, hoperation, hwrite, hcompletions, Completion.work]

/-- If there is something to do, there is a step that does a part of it. -/
theorem Inv.advances (identity : Identity) (h : Inv s front) (hdone : ¬ s.Done) :
    s.Advances identity := by
  obtain ⟨hconnected, houtbox, -⟩ := h
  have hnone : s.completions = [] → ∀ c ∈ s.completions, c.popped = false := by
    intro hcompletions c hc
    rw [hcompletions] at hc
    cases hc
  -- a job that is being executed goes on first
  cases hrunning : s.running with
  | some running =>
    cases running with
    | push => exact advances_push identity hrunning
    | sendNext =>
      cases houtbox with
      | idle _ _ _ hb | ongoing _ _ _ _ hb | written _ _ _ hb | next _ _ _ hb =>
        rw [hrunning] at hb
        exact hb.elim
      | popped _ _ _ hb =>
        rw [hrunning] at hb
        cases hb
      | sending houtbox hoperation =>
        exact advances_sendNext identity hrunning houtbox hoperation
  | none =>
    cases houtbox with
    | idle _ hoperation hcompletions =>
      cases hstrand : s.strand with
      | nil => exact absurd ⟨hstrand, hrunning, hcompletions, hoperation⟩ hdone
      | cons job strand =>
        exact advances_runStrand identity hrunning hstrand (hnone hcompletions)
    | ongoing _ hoperation hevent hcompletions =>
      exact advances_ongoing identity hconnected hoperation hevent hcompletions
    | @written m ms inPlace houtbox hoperation hcompletions =>
      refine ⟨.pop ⟨.ok (), inPlace, false⟩, { s with
        outbox := ms
        completions := [⟨.ok (), inPlace, true⟩] }, trivial, trivial, hrunning, ?_, rfl, ?_⟩
      · simp [Sender.step, houtbox, hcompletions]
      · simp only [work, houtbox, hcompletions, List.length_cons, List.map_singleton,
          List.sum_singleton, Completion.work, Bool.false_eq_true, if_false, if_true]
        omega
    | @popped ms inPlace houtbox hoperation hcompletions =>
      refine ⟨.finish ⟨.ok (), inPlace, true⟩,
        Sender.finish { s with completions := [] } ⟨.ok (), inPlace, true⟩,
        trivial, trivial, trivial, ?_, ?_, ?_⟩
      · simp [Sender.step, hcompletions]
      · simp only [Sender.finish]
        split <;> rfl
      · have hcallback : (s.dispatching || inPlace).toNat ≤ s.dispatching.toNat + 1 := by
          cases s.dispatching <;> cases inPlace <;> decide
        simp only [Sender.finish]
        split
        · simp [work, hcompletions, Completion.work]
        · simp [work, hcompletions, Completion.work, StrandJob.work]
          omega
    | @next m ms before after _ _ hcompletions _ hstrand =>
      cases before with
      | nil => exact advances_runStrand identity hrunning hstrand (hnone hcompletions)
      | cons job before => exact advances_runStrand identity hrunning hstrand (hnone hcompletions)
    | sending _ _ _ hsending =>
      rw [hrunning] at hsending
      cases hsending

/-- Without further calls, everything is written after some steps. -/
theorem Inv.exists_done (identity : Identity) (h : Inv s front) :
    ∃ as s' front', (∀ a ∈ as, a.IsInternal) ∧ (machine identity).run NoKernelError s as = some s' ∧
      s'.Done ∧ s'.accepted = s.accepted ∧ Inv s' front' := by
  have hprogress : ∀ t, (t.accepted = s.accepted ∧ ∃ front, Inv t front) → ¬ t.Done →
      ∃ a t', (machine identity).step t a = some t' ∧ NoKernelError t a ∧ a.IsInternal ∧
        (t'.accepted = s.accepted ∧ ∃ front, Inv t' front) ∧ t'.work < t.work := by
    rintro t ⟨haccepted, front, h⟩ hdone
    obtain ⟨a, t', hinternal, herror, hguard, hstep, haccepted', hless⟩ := h.advances identity hdone
    exact ⟨a, t', hstep, herror, hinternal,
      ⟨haccepted'.trans haccepted, h.step herror hguard hstep⟩, hless⟩
  obtain ⟨as, s', has, hrun, ⟨haccepted, front', h'⟩, hdone⟩ :=
    Machine.exists_run_of_work work hprogress ⟨rfl, front, h⟩
  exact ⟨as, s', front', has, hrun, hdone, haccepted, h'⟩

theorem Inv.written_of_done (h : Inv s front) (hdone : s.Done) :
    s.socket.written = s.accepted.flatten := by
  obtain ⟨hempty, hrunning, hcompletions, hoperation⟩ := hdone
  obtain ⟨-, houtbox, hwritten⟩ := h
  rw [hempty, hrunning] at hwritten
  cases houtbox with
  | idle => simpa [runningBytes] using hwritten
  | ongoing _ hoperation' =>
    rw [hoperation] at hoperation'
    cases hoperation'
  | written _ _ hcompletions' | popped _ _ hcompletions' =>
    rw [hcompletions] at hcompletions'
    cases hcompletions'
  | next _ _ _ _ hnext =>
    rw [hempty] at hnext
    simp at hnext
  | sending _ _ _ hsending =>
    rw [hrunning] at hsending
    cases hsending

/-! ## Main result -/

/-- Two messages are passed to `Send()`: the completion handler of the first one finds the second
one, which a job of the strand is sending, and has it sent once more. -/
example :
    ((machine .kServer).run NoKernelError {} [.send [1], .runStrand, .push, .sendNext (.bytes 1),
      .pop ⟨.ok (), false, false⟩, .send [2], .runStrand, .push, .sendNext (.bytes 1),
      .finish ⟨.ok (), false, true⟩, .runStrand, .sendNext (.bytes 1)]).map (·.socket.written) =
      some [1, 2, 2] := by decide

/-- The completion handler of a message that was sent in two parts is in `Dispatch()`, which has
sent a part of the next one, when the event for the rest is handled: it is lost. -/
example :
    ((machine .kServer).run NoKernelError {} [.send [1, 2], .runStrand, .push, .sendNext (.bytes 1),
      .send [3, 4], .runStrand, .push, .edge, .perform (.bytes 1), .pop ⟨.ok (), true, false⟩,
      .finish ⟨.ok (), true, true⟩, .runStrand, .sendNext (.bytes 1), .edge, .dispatched]).map
        (fun s => (s.socket.written, s.socket.sendOperation, s.writeEvent)) =
      some ([1, 2, 3], some [4], .absent) := by decide

end Sender

end Asrt.ClientServer
