import Asrt.Socket.ByteStream
import Asrt.Socket.StreamSocket
import Mathlib.Algebra.Order.BigOperators.Group.List
import Mathlib.Algebra.Order.Group.Nat
import Mathlib.Algebra.Ring.Nat

/-!
# Asynchronous operations

`AsyncOperation` (`socket/async_operation.hpp`) with everything it holds: the view of the user's
buffer, the completion handler and the result. An operation is initiated by `Perform()` with a mode
and a callback, which tries the system call at once if the mode is speculative, and is continued by
`Perform()` on each event of the reactor until it is complete. What the system calls return is an
argument.

A transfer is complete when the system call has handled all that is left of the buffer. What is
reported then is the number of bytes of that last call.

## Main definitions

* `AsyncOperation`, `AsyncOperation.doPerform`: the operation and its attempts.
* `Transfer`: an exhaustive send or receive, with the ranges it has handed to the kernel.
* `transferMachine`: its initiation and continuations, as a machine.

## Main results

* `transfer_places_bytes`: the ranges follow each other through the buffer.
* `byte_count_iff`: when the reported number is the size of the buffer.
-/

namespace Asrt.Socket.Async

open ByteStream (SockErrorCode EAGAIN)
open Asrt.Socket.Stream (OperationStatus)

/-- `OperationType` -/
inductive OperationType
  | kSend
  | kReceive
  | kConnect
deriving DecidableEq, Repr

/-- `OperationContext` -/
inductive OperationContext
  | kInitiation
  | kContinuation
deriving DecidableEq, Repr

/-- `EINPROGRESS` -/
def EINPROGRESS : ℕ := 115

/-- `ErrorCode_Ns::IsConnectInProgress()` -/
def isConnectInProgress (errno : ℕ) : Bool := errno = EAGAIN || errno = EINPROGRESS

/-- What a system call returns: a value, or an error number. The value is the number of bytes of
`send()` and `recv()` and the `SO_ERROR` of `getsockopt()`. -/
structure SystemResult where
  result : Except ℕ ℕ
  /-- `errno` after the call, which a failed connection is reported with. -/
  errno : ℕ := 0
deriving Repr

/-- The number of bytes that `send()` or `recv()` has handled. -/
def SystemResult.count (call : SystemResult) : ℕ :=
  match call.result with
  | .ok n => n
  | .error _ => 0

/-- `MutableBufferView` and `ConstBufferView`; the view of an address likewise. -/
structure BufferView where
  /-- `data_`, as an address. -/
  data : ℕ := 0
  /-- `size_` -/
  size : ℕ := 0
deriving DecidableEq, Repr

/-- `Advance()` -/
def BufferView.advance (view : BufferView) (n : ℕ) : BufferView where
  data := view.data + min n view.size
  size := view.size - min n view.size

/-- The result that a completion handler gets. A connect has no value; it is zero here. -/
abbrev CompletionResult := Except SockErrorCode ℕ

/-- A member of the operation that outlives its calls. -/
structure Stored (α : Type) where
  value : α
  /-- Ghost: how often it was assigned. -/
  writes : ℕ := 0
deriving DecidableEq, Repr

/-- An assignment. -/
def Stored.assign {α : Type} (stored : Stored α) (value : α) : Stored α where
  value
  writes := stored.writes + 1

/-- `AsyncOperation` -/
structure AsyncOperation (H : Type) where
  /-- `total_bytes_` -/
  totalBytes : ℕ := 0
  /-- `opeartion_ongoing_` -/
  operationOngoing : Bool := false
  /-- `is_exhaustive_` -/
  isExhaustive : Bool := false
  /-- `buffer_view_` -/
  bufferView : BufferView := {}
  /-- `completetion_handler_` -/
  completetionHandler : Stored (Option H) := ⟨none, 0⟩
  /-- `completion_result_` -/
  completionResult : Stored CompletionResult := ⟨.ok 0, 0⟩

namespace AsyncOperation

variable {H : Type}

/-- The assignment of `completion_result_` in `DoPerform()`. -/
def setResult (op : AsyncOperation H) (result : CompletionResult) : AsyncOperation H :=
  { op with completionResult := op.completionResult.assign result }

/-- `OnInitiation()` -/
def onInitiation (op : AsyncOperation H) (userCallback : H) (buffView : BufferView)
    (isExhaustive : Bool) (bytesHandled : ℕ) : AsyncOperation H :=
  { op with
    operationOngoing := true
    totalBytes := buffView.size
    isExhaustive
    completetionHandler := op.completetionHandler.assign (some userCallback)
    bufferView := buffView.advance bytesHandled }

/-- `OnContinuation()` -/
def onContinuation (op : AsyncOperation H) (bytesHandled : ℕ) : AsyncOperation H :=
  { op with operationOngoing := true, bufferView := op.bufferView.advance bytesHandled }

/-- `DoPerform()` of a connect. The error of a connection that failed is read from `errno`. -/
def doConnect (op : AsyncOperation H) (opContext : OperationContext) (call : SystemResult) :
    AsyncOperation H × OperationStatus :=
  match opContext, call.result with
  | .kInitiation, .ok _ => (op.setResult (.ok 0), .kComplete)
  | .kInitiation, .error errno =>
    if isConnectInProgress errno then (op, .kAsyncNeeded)
    else (op.setResult (.error (.system errno)), .kComplete)
  | .kContinuation, .ok sockError =>
    -- a spurious wake-up
    if isConnectInProgress sockError then (op, .kAsyncNeeded)
    else
      (op.setResult (if sockError ≠ 0 then .error (.system call.errno) else .ok 0), .kComplete)
  | .kContinuation, .error errno => (op.setResult (.error (.system errno)), .kComplete)

/-- `DoPerform()`, with the number of bytes handled. -/
def doPerform (op : AsyncOperation H) (opType : OperationType) (opContext : OperationContext)
    (bufferView : BufferView) (isExhaustive : Bool) (call : SystemResult) :
    AsyncOperation H × OperationStatus × ℕ :=
  if opContext = .kInitiation ∧ op.operationOngoing then
    (op.setResult (.error .asyncOperationInProgress), .kComplete, 0)
  else if opType = .kConnect then
    ((op.doConnect opContext call).1, (op.doConnect opContext call).2, 0)
  else if opType = .kReceive ∧ bufferView.size = 0 then
    -- a receive of nothing makes no system call
    (op.setResult (.ok 0), .kComplete, 0)
  else
    match call.result with
    | .error errno =>
      if errno = EAGAIN then (op, .kAsyncNeeded, 0)
      else (op.setResult (.error (.system errno)), .kComplete, 0)
    | .ok bytesHandled =>
      if bytesHandled = bufferView.size then
        (op.setResult (.ok bytesHandled), .kComplete, bytesHandled)
      else if opType = .kReceive ∧ bytesHandled = 0 then
        (op.setResult (.error .endOfFile), .kComplete, bytesHandled)
      else if isExhaustive then (op, .kAsyncNeeded, bytesHandled)
      else (op.setResult (.ok bytesHandled), .kComplete, bytesHandled)

/-- `Perform()` in the context of the initiation, with what is reported at once. -/
def performInitiation (op : AsyncOperation H) (opType : OperationType)
    (allowSpeculative isExhaustive : Bool) (buffView : BufferView) (userCallback : H)
    (call : SystemResult) : AsyncOperation H × Option (Option H × CompletionResult) :=
  if !allowSpeculative then (op.onInitiation userCallback buffView isExhaustive 0, none)
  else
    match op.doPerform opType .kInitiation buffView isExhaustive call with
    | (op, .kComplete, _) => (op, some (some userCallback, op.completionResult.value))
    | (op, .kAsyncNeeded, handledBytes) =>
      (op.onInitiation userCallback buffView isExhaustive handledBytes, none)

/-- `Perform()` in the context of a continuation. The handler and the result that are reported are
those that the operation holds. -/
def performContinuation (op : AsyncOperation H) (opType : OperationType) (call : SystemResult) :
    AsyncOperation H × Option (Option H × CompletionResult) :=
  match op.doPerform opType .kContinuation op.bufferView op.isExhaustive call with
  | (op, .kComplete, _) =>
    ({ op with operationOngoing := false },
      some (op.completetionHandler.value, op.completionResult.value))
  | (op, .kAsyncNeeded, handledBytes) => (op.onContinuation handledBytes, none)

end AsyncOperation

/-! ## Transfers -/

/-- The attempt makes a system call. -/
def makesCall (opType : OperationType) (view : BufferView) : Bool :=
  !(opType = .kReceive ∧ view.size = 0)

/-- A send or receive, with what it has done so far. -/
structure Transfer (H : Type) where
  op : AsyncOperation H
  /-- Ghost: the views that were handed to the kernel, each with the number of bytes that the kernel
  has handled from its front. -/
  requests : List (BufferView × ℕ) := []
  /-- The handlers that were reported to, with the results. -/
  reports : List (Option H × CompletionResult) := []

namespace Transfer

variable {H : Type}

/-- The number of bytes handled so far. -/
def handled (t : Transfer H) : ℕ := (t.requests.map Prod.snd).sum

/-- An exhaustive transfer is initiated. -/
def start (op : AsyncOperation H) (opType : OperationType) (allowSpeculative : Bool)
    (view : BufferView) (callback : H) (call : SystemResult) : Transfer H where
  op := (op.performInitiation opType allowSpeculative true view callback call).1
  requests := if allowSpeculative && makesCall opType view then [(view, call.count)] else []
  reports := (op.performInitiation opType allowSpeculative true view callback call).2.toList

/-- The transfer is continued. -/
def resume (t : Transfer H) (opType : OperationType) (call : SystemResult) : Transfer H where
  op := (t.op.performContinuation opType call).1
  requests := t.requests ++
    if makesCall opType t.op.bufferView then [(t.op.bufferView, call.count)] else []
  reports := t.reports ++ (t.op.performContinuation opType call).2.toList

end Transfer

/-- A transfer of the user's buffer, initiated in any mode by an operation that is not ongoing, and
continued while it is. A system call handles no more than it is asked for. -/
def transferMachine (H : Type) (opType : OperationType) (view : BufferView) (callback : H) :
    ToMathlib.Machine (Transfer H) SystemResult where
  init t := ∃ op allowSpeculative call, op.operationOngoing = false ∧ call.count ≤ view.size ∧
    t = .start op opType allowSpeculative view callback call
  step t call :=
    if t.op.operationOngoing ∧ call.count ≤ t.op.bufferView.size then some (t.resume opType call)
    else none

/-- The ranges follow each other from the front of the view: each request is for all that is left of
it. -/
def Follows : BufferView → List (BufferView × ℕ) → Prop
  | _, [] => True
  | view, (requested, n) :: rest =>
    requested = view ∧ n ≤ view.size ∧ Follows (view.advance n) rest

section

variable {H : Type} {opType : OperationType} {view : BufferView} {callback : H} {t : Transfer H}
  {op : AsyncOperation H} {call : SystemResult}

@[simp] theorem BufferView.advance_zero (view : BufferView) : view.advance 0 = view := by
  simp [BufferView.advance]

theorem BufferView.advance_advance (view : BufferView) (m n : ℕ) :
    (view.advance m).advance n = view.advance (m + n) := by
  simp only [BufferView.advance, BufferView.mk.injEq]
  omega

/-- What follows a range starts at its end. -/
theorem follows_append {requests : List (BufferView × ℕ)} {requested : BufferView} {n : ℕ} :
    Follows view (requests ++ [(requested, n)]) ↔ Follows view requests ∧
      requested = view.advance (requests.map Prod.snd).sum ∧ n ≤ requested.size := by
  induction requests generalizing view with
  | nil =>
    simp only [List.nil_append, Follows, List.map_nil, List.sum_nil, BufferView.advance_zero,
      and_true, true_and]
    constructor
    · rintro ⟨rfl, hn⟩
      exact ⟨rfl, hn⟩
    · rintro ⟨rfl, hn⟩
      exact ⟨rfl, hn⟩
  | cons request requests ih =>
    obtain ⟨first, m⟩ := request
    simp only [List.cons_append, Follows, ih, List.map_cons, List.sum_cons,
      BufferView.advance_advance, and_assoc]

/-- The ranges lie inside the view. -/
theorem Follows.sum_le {requests : List (BufferView × ℕ)} (h : Follows view requests) :
    (requests.map Prod.snd).sum ≤ view.size := by
  induction requests generalizing view with
  | nil => simp
  | cons request requests ih =>
    obtain ⟨first, m⟩ := request
    obtain ⟨-, hm, hrest⟩ := h
    have hsum := ih hrest
    simp only [BufferView.advance] at hsum
    simp only [List.map_cons, List.sum_cons]
    omega

/-- An attempt at a transfer: some bytes are left, or it is complete, with success only if the
system call has handled all of the view. -/
theorem doPerform_transfer (op : AsyncOperation H) (view : BufferView) (call : SystemResult)
    (opContext : OperationContext) (hop : opType ≠ .kConnect)
    (hnew : opContext = .kInitiation → op.operationOngoing = false) :
    (op.doPerform opType opContext view true call = (op, .kAsyncNeeded, call.count) ∧
      makesCall opType view = true ∧ (call.count = view.size → view.size = 0)) ∨
    ∃ result bytes, op.doPerform opType opContext view true call =
        (op.setResult result, .kComplete, bytes) ∧
      ∀ n, result = .ok n → n = view.size ∧ (makesCall opType view = true → call.count = n) := by
  -- the refusal of an overlapping start does not apply
  have hidle : ¬ (opContext = .kInitiation ∧ op.operationOngoing = true) := by
    rintro ⟨hcontext, hongoing⟩
    simp [hnew hcontext] at hongoing
  simp only [AsyncOperation.doPerform, if_neg hidle, if_neg hop]
  split_ifs with hzero
  · -- a receive of nothing
    refine .inr ⟨.ok 0, 0, rfl, fun n hn => ?_⟩
    obtain rfl := Except.ok.inj hn
    exact ⟨hzero.2.symm, by simp [makesCall, hzero]⟩
  · have hcall : makesCall opType view = true := by rw [makesCall, decide_eq_false hzero]; rfl
    rcases hresult : call.result with errno | bytes
    · -- the call has failed, or would block
      simp only
      split_ifs
      · have hcount : call.count = 0 := by simp [SystemResult.count, hresult]
        exact .inl ⟨by rw [hcount], hcall, fun heq => by rw [← heq, hcount]⟩
      · exact .inr ⟨_, 0, rfl, fun n hn => by cases hn⟩
    · have hcount : call.count = bytes := by simp [SystemResult.count, hresult]
      simp only
      split_ifs with hfull heof
      · refine .inr ⟨_, bytes, rfl, fun n hn => ?_⟩
        obtain rfl := Except.ok.inj hn
        exact ⟨hfull, fun _ => hcount⟩
      · exact .inr ⟨_, bytes, rfl, fun n hn => by cases hn⟩
      · exact .inl ⟨by rw [hcount], hcall, fun heq => absurd (hcount.symm.trans heq) hfull⟩

/-- Without a system call there is nothing to transfer. -/
theorem size_of_not_makesCall (h : makesCall opType view = false) : view.size = 0 := by
  simp only [makesCall, Bool.not_eq_false', decide_eq_true_eq] at h
  exact h.2

/-- What has been transferred so far: the view that an ongoing operation holds is what is left of
the user's buffer; a complete one has been reported once, with success if nothing is left. -/
structure Sound (view : BufferView) (callback : H) (t : Transfer H) : Prop where
  follows : Follows view t.requests
  ongoing : t.op.operationOngoing = true → t.reports = [] ∧
    t.op.bufferView = view.advance t.handled ∧ t.op.isExhaustive = true ∧
    t.op.completetionHandler.value = some callback ∧ (t.handled = view.size → view.size = 0)
  complete : t.op.operationOngoing = false → ∃ result, t.reports = [(some callback, result)] ∧
    ∀ n, result = .ok n → t.handled = view.size ∧
      n = view.size - (t.requests.dropLast.map Prod.snd).sum

/-- The ranges and the count after one more attempt that was complete. -/
theorem Follows.complete {requests : List (BufferView × ℕ)} {rest : BufferView}
    (h : Follows view requests) (hrest : rest = view.advance (requests.map Prod.snd).sum)
    (hleft : (requests.map Prod.snd).sum = view.size → view.size = 0) {n : ℕ}
    (hn : n = rest.size) (hcount : makesCall opType rest = true → call.count = n) :
    ((requests ++ if makesCall opType rest then [(rest, call.count)] else []).map Prod.snd).sum =
        view.size ∧
      n = view.size - ((requests ++ if makesCall opType rest then [(rest, call.count)]
        else []).dropLast.map Prod.snd).sum := by
  have hle := h.sum_le
  have hsize : rest.size = view.size - (requests.map Prod.snd).sum := by
    rw [hrest]
    simp only [BufferView.advance]
    omega
  cases hcall : makesCall opType rest with
  | true =>
    have hbytes := hcount hcall
    simp only [↓reduceIte, List.map_append, List.map_cons, List.map_nil, List.sum_append,
      List.sum_cons, List.sum_nil, List.dropLast_concat]
    omega
  | false =>
    -- nothing was left, which is so only if there was nothing from the beginning
    have hzero := size_of_not_makesCall hcall
    have hview := hleft (by omega)
    simp only [Bool.false_eq_true, ↓reduceIte, List.append_nil]
    omega

/-- A transfer is sound when it is initiated. -/
theorem sound_start (hop : opType ≠ .kConnect) (hnew : op.operationOngoing = false)
    (hcall : call.count ≤ view.size) (allowSpeculative : Bool) :
    Sound view callback (.start op opType allowSpeculative view callback call) := by
  cases allowSpeculative with
  | false =>
    refine ⟨trivial, fun _ => ⟨rfl, rfl, rfl, rfl, ?_⟩, fun hidle => by cases hidle⟩
    intro hzero
    exact hzero.symm
  | true =>
    rcases doPerform_transfer op view call .kInitiation hop fun _ => hnew with
      ⟨heq, hmakes, hleft⟩ | ⟨result, bytes, heq, hresult⟩
    · -- the rest is left to the reactor
      simp only [Transfer.start, AsyncOperation.performInitiation, heq, hmakes]
      refine ⟨⟨rfl, hcall, trivial⟩, fun _ => ⟨rfl, rfl, rfl, rfl, ?_⟩, fun hidle => by cases hidle⟩
      simpa [Transfer.handled] using hleft
    · -- the transfer is complete at once, and no view is stored
      simp only [Transfer.start, AsyncOperation.performInitiation, heq]
      refine ⟨?_, fun hongoing => ?_, fun _ => ⟨result, rfl, fun n hn => ?_⟩⟩
      · cases hmakes : makesCall opType view with
        | true => exact ⟨rfl, hcall, trivial⟩
        | false => trivial
      · simp [AsyncOperation.setResult, hnew] at hongoing
      · obtain ⟨hsize, hcount⟩ := hresult n hn
        have hnothing : Follows view [] := trivial
        exact hnothing.complete rfl (fun h => h.symm) hsize hcount

/-- A transfer stays sound when it is continued. -/
theorem Sound.resume (h : Sound view callback t) (hop : opType ≠ .kConnect)
    (hongoing : t.op.operationOngoing = true) (hcall : call.count ≤ t.op.bufferView.size) :
    Sound view callback (t.resume opType call) := by
  obtain ⟨hreports, hview, hexhaustive, hhandler, hleft⟩ := h.ongoing hongoing
  have hsum := h.follows.sum_le
  have hsize : t.op.bufferView.size = view.size - t.handled := by
    rw [hview]
    simp only [BufferView.advance, Transfer.handled]
    omega
  rcases doPerform_transfer t.op t.op.bufferView call .kContinuation hop
      (fun hcontext => by cases hcontext) with
    ⟨heq, hmakes, hleft'⟩ | ⟨result, bytes, heq, hresult⟩
  · -- some bytes are left, and the view starts behind those of this call
    simp only [Transfer.resume, AsyncOperation.performContinuation, hexhaustive, heq, hmakes]
    refine ⟨follows_append.mpr ⟨h.follows, hview, hcall⟩, fun _ => ⟨?_, ?_, hexhaustive, hhandler,
      ?_⟩, fun hidle => by cases hidle⟩
    · simpa using hreports
    · simp only [AsyncOperation.onContinuation, hview, BufferView.advance_advance]
      simp [Transfer.handled]
    · simp only [Transfer.handled] at hsize hleft hsum ⊢
      simp only [↓reduceIte, List.map_append, List.map_cons, List.map_nil, List.sum_append,
        List.sum_cons, List.sum_nil, add_zero]
      omega
  · -- the transfer is complete, and its handler is called for the first time
    simp only [Transfer.resume, AsyncOperation.performContinuation, hexhaustive, heq]
    refine ⟨?_, fun hongoing' => by simp at hongoing', fun _ => ⟨result, ?_, fun n hn => ?_⟩⟩
    · cases hmakes : makesCall opType t.op.bufferView with
      | true => exact follows_append.mpr ⟨h.follows, hview, hcall⟩
      | false => simpa using h.follows
    · simp [hreports, AsyncOperation.setResult, Stored.assign, hhandler]
    · obtain ⟨hn', hcount⟩ := hresult n hn
      exact h.follows.complete hview hleft hn' hcount

/-- Every transfer is sound at any time. -/
theorem sound_of_reachable (hop : opType ≠ .kConnect)
    (ht : (transferMachine H opType view callback).Reachable t) : Sound view callback t := by
  refine ht.invariant ?_ ?_
  · rintro _ ⟨op, allowSpeculative, call, hnew, hcall, rfl⟩
    exact sound_start hop hnew hcall allowSpeculative
  · intro t call t' hsound _ ht'
    obtain ⟨⟨hongoing, hcall⟩, ⟨⟩⟩ := Option.ite_none_right_eq_some.mp ht'
    exact hsound.resume hop hongoing hcall

/-- At any time of an exhaustive transfer, the view that an ongoing operation holds is the user's
buffer without the bytes handled so far, the ranges handed to the kernel follow each other inside
the buffer, and the handler was reported to at most once, with success only if all of the buffer was
handled. -/
theorem transfer_places_bytes (hop : opType ≠ .kConnect)
    (ht : (transferMachine H opType view callback).Reachable t) :
    (t.op.operationOngoing = true →
      t.op.bufferView = ⟨view.data + t.handled, view.size - t.handled⟩) ∧
    Follows view t.requests ∧ t.handled ≤ view.size ∧ t.reports.length ≤ 1 ∧
    ∀ report ∈ t.reports, report.1 = some callback ∧
      ∀ n, report.2 = .ok n → t.handled = view.size := by
  have hsound := sound_of_reachable hop ht
  have hle : t.handled ≤ view.size := hsound.follows.sum_le
  -- an ongoing transfer has reported nothing, a complete one has reported once
  refine ⟨fun hongoing => ?_, hsound.follows, hle, ?_⟩
  · obtain ⟨-, hview, -⟩ := hsound.ongoing hongoing
    rw [hview, BufferView.advance, min_eq_left hle]
  · cases hongoing : t.op.operationOngoing with
    | true =>
      obtain ⟨hreports, -⟩ := hsound.ongoing hongoing
      simp [hreports]
    | false =>
      obtain ⟨result, hreports, hresult⟩ := hsound.complete hongoing
      rw [hreports]
      refine ⟨le_rfl, fun report hmem => ?_⟩
      obtain rfl := List.mem_singleton.mp hmem
      exact ⟨rfl, fun n hn => (hresult n hn).1⟩

/-- Two of four bytes are sent at once. -/
theorem transfer_places_bytes_half :
    ∃ t : Transfer Unit, (transferMachine Unit .kSend ⟨100, 4⟩ ()).Reachable t ∧
      t.op.operationOngoing = true ∧ t.handled = 2 ∧ t.op.bufferView = ⟨102, 2⟩ := by
  have ht : (transferMachine Unit .kSend ⟨100, 4⟩ ()).Reachable
      (.start {} .kSend true ⟨100, 4⟩ () ⟨.ok 2, 0⟩) :=
    .init ⟨{}, true, ⟨.ok 2, 0⟩, rfl, by decide, rfl⟩
  exact ⟨_, ht, rfl, rfl, (transfer_places_bytes (by decide) ht).1 rfl⟩

/-- A receive of four bytes is complete with its first continuation, and the view that the operation
holds is still the whole buffer. -/
theorem not_transfer_view_advanced :
    ¬ ∀ t : Transfer Unit, (transferMachine Unit .kReceive ⟨100, 4⟩ ()).Reachable t →
      t.op.bufferView = ⟨100 + t.handled, 4 - t.handled⟩ := by
  intro h
  have hstart : (transferMachine Unit .kReceive ⟨100, 4⟩ ()).Reachable
      (.start {} .kReceive false ⟨100, 4⟩ () ⟨.ok 0, 0⟩) :=
    .init ⟨{}, false, ⟨.ok 0, 0⟩, rfl, by decide, rfl⟩
  -- `OnCompletion()` does not touch the view
  have hview := h _ (.step hstart trivial (a := ⟨.ok 4, 0⟩) rfl)
  cases hview

/-! ## The number that is reported -/

/-- What is reported on success is what the calls before the last one have left. -/
theorem byte_count_eq_size_iff (hop : opType ≠ .kConnect)
    (ht : (transferMachine H opType view callback).Reachable t) {handler : Option H} {n : ℕ}
    (hn : (handler, .ok n) ∈ t.reports) :
    n = view.size ↔ ∀ request ∈ t.requests.dropLast, request.2 = 0 := by
  have hsound := sound_of_reachable hop ht
  -- an ongoing transfer has not been reported
  have hidle : t.op.operationOngoing = false := by
    by_contra hongoing
    obtain ⟨hreports, -⟩ := hsound.ongoing (by simpa using hongoing)
    simp [hreports] at hn
  obtain ⟨result, hreports, hresult⟩ := hsound.complete hidle
  have hreport : (handler, .ok n) = (some callback, result) := by simpa [hreports] using hn
  obtain ⟨hhandled, hcount⟩ := hresult n (Prod.mk.inj hreport).2.symm
  -- what is reported is the last call's part of the whole
  have hdrop : (t.requests.dropLast.map Prod.snd).sum ≤ t.handled :=
    ((List.dropLast_sublist t.requests).map Prod.snd).sum_le_sum fun _ _ => Nat.zero_le _
  have hzero : (t.requests.dropLast.map Prod.snd).sum = 0 ↔
      ∀ request ∈ t.requests.dropLast, request.2 = 0 := by
    rw [List.sum_eq_zero_iff_forall_eq_nat, List.forall_mem_map]
  rw [← hzero, hcount]
  omega

/-- In two transfers of a buffer that end with success, the handler gets the size of the buffer both
times if and only if in both of them no system call before the last has handled any byte. -/
theorem byte_count_iff (hop : opType ≠ .kConnect) {t' : Transfer H}
    (ht : (transferMachine H opType view callback).Reachable t)
    (ht' : (transferMachine H opType view callback).Reachable t') {handler handler' : Option H}
    {n n' : ℕ} (hn : (handler, .ok n) ∈ t.reports) (hn' : (handler', .ok n') ∈ t'.reports) :
    n = n' ∧ n = view.size ↔
      (∀ request ∈ t.requests.dropLast, request.2 = 0) ∧
        ∀ request ∈ t'.requests.dropLast, request.2 = 0 := by
  rw [← byte_count_eq_size_iff hop ht hn, ← byte_count_eq_size_iff hop ht' hn']
  constructor
  · rintro ⟨rfl, hsize⟩
    exact ⟨hsize, hsize⟩
  · rintro ⟨hsize, hsize'⟩
    exact ⟨hsize.trans hsize'.symm, hsize⟩

/-- A send of four bytes at once, and one that would block first. -/
theorem byte_count_blocked :
    ∃ t t' : Transfer Unit, (transferMachine Unit .kSend ⟨100, 4⟩ ()).Reachable t ∧
      (transferMachine Unit .kSend ⟨100, 4⟩ ()).Reachable t' ∧
      t.reports = [(some (), .ok 4)] ∧ t'.reports = [(some (), .ok 4)] ∧
      t'.requests.length = 2 ∧ ∀ request ∈ t'.requests.dropLast, request.2 = 0 := by
  have ht : (transferMachine Unit .kSend ⟨100, 4⟩ ()).Reachable
      (.start {} .kSend true ⟨100, 4⟩ () ⟨.ok 4, 0⟩) :=
    .init ⟨{}, true, ⟨.ok 4, 0⟩, rfl, by decide, rfl⟩
  have hbusy : (transferMachine Unit .kSend ⟨100, 4⟩ ()).Reachable
      (.start {} .kSend true ⟨100, 4⟩ () ⟨.error EAGAIN, 0⟩) :=
    .init ⟨{}, true, ⟨.error EAGAIN, 0⟩, rfl, by decide, rfl⟩
  have ht' : (transferMachine Unit .kSend ⟨100, 4⟩ ()).Reachable
      ((Transfer.start {} .kSend true ⟨100, 4⟩ () ⟨.error EAGAIN, 0⟩).resume .kSend ⟨.ok 4, 0⟩) :=
    .step hbusy trivial (a := ⟨.ok 4, 0⟩) rfl
  have hn : (some (), .ok 4) ∈
      (Transfer.start {} .kSend true ⟨100, 4⟩ () ⟨.ok 4, 0⟩).reports := List.mem_cons_self
  have hn' : (some (), .ok 4) ∈ ((Transfer.start {} .kSend true ⟨100, 4⟩ ()
      ⟨.error EAGAIN, 0⟩).resume .kSend ⟨.ok 4, 0⟩).reports := List.mem_cons_self
  exact ⟨_, _, ht, ht', rfl, rfl, rfl, ((byte_count_iff (by decide) ht ht' hn hn').mp ⟨rfl, rfl⟩).2⟩

/-- A send of four bytes at once is reported as such, and one in two halves as a send of two bytes.
-/
theorem not_byte_count_halves :
    ¬ ∀ t t' : Transfer Unit, (transferMachine Unit .kSend ⟨100, 4⟩ ()).Reachable t →
      (transferMachine Unit .kSend ⟨100, 4⟩ ()).Reachable t' →
      ∀ n n', (some (), .ok n) ∈ t.reports → (some (), .ok n') ∈ t'.reports → n = n' ∧ n = 4 := by
  intro h
  have ht : (transferMachine Unit .kSend ⟨100, 4⟩ ()).Reachable
      (.start {} .kSend true ⟨100, 4⟩ () ⟨.ok 4, 0⟩) :=
    .init ⟨{}, true, ⟨.ok 4, 0⟩, rfl, by decide, rfl⟩
  have hstart : (transferMachine Unit .kSend ⟨100, 4⟩ ()).Reachable
      (.start {} .kSend true ⟨100, 4⟩ () ⟨.ok 2, 0⟩) :=
    .init ⟨{}, true, ⟨.ok 2, 0⟩, rfl, by decide, rfl⟩
  obtain ⟨hcount, -⟩ := h _ _ ht (.step hstart trivial (a := ⟨.ok 2, 0⟩) rfl) 4 2
    List.mem_cons_self List.mem_cons_self
  cases hcount

end

end Asrt.Socket.Async
