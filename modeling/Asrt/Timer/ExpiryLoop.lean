import Asrt.Timer.QueueInvariant
import Mathlib.Data.List.Nodup

/-!
# One call of `HandleExpiry()`

`HandleExpiry()` as a function of the readings of the clock that it takes, for handlers that do not
call back into the queue: one reading to see whether the front of the queue has expired and, if it
has, a second one right before its handler is called. The handlers that are called are recorded with
these readings.

A recurring timer is queued again with the second reading plus its interval, so it may expire again
in the same call. The induction is over the turns of the loop (`Loop`); what one turn does to the
queue is said once, in `Ready.turn`.

## Main results

- `handle_expiry_correct`: what a call that returns has done.
-/

namespace Asrt.Timer

/-- A call of a handler by `HandleExpiry()`. -/
structure Invocation (H : Type) where
  tag : TimerTag
  handler : H
  /-- The expiry that the timer had. -/
  expiry : ℕ
  /-- The reading of the clock by which the timer has expired. -/
  now : ℕ
  /-- `prev_expiry`, the reading right before the call. -/
  prevExpiry : ℕ
deriving DecidableEq, Repr

namespace TimerQueue

variable {H : Type} {q q' : TimerQueue H} {readings : List ℕ} {invocations : List (Invocation H)}

/-- The loop reads the clock: there is a front, and its tag is valid. -/
def readsClock (q : TimerQueue H) : Bool :=
  match q.queuedTimers with
  | [] => false
  | front :: _ => front.tag ≠ kInvalidTimerTag

/-- `HandleOneExpiry()` of a timer whose handler does not call back into the queue. -/
def handleOneExpiry (q : TimerQueue H) (tag : TimerTag) (prevExpiry : ℕ) : TimerQueue H :=
  (q.beginOneExpiry tag).endOneExpiry tag prevExpiry

/-- The loop of `HandleExpiry()`, with the handlers that it calls. There is no result if the loop
takes other readings of the clock than the given ones, or if it calls an empty handler. -/
def expiryLoop (q : TimerQueue H) : List ℕ → Option (TimerQueue H × List (Invocation H))
  | [] => if q.readsClock then none else some (q, [])
  | now :: readings =>
    if q.readsClock then
      match q.nextExpired now with
      | none => if readings = [] then some (q, []) else none
      | some tag =>
        match (q.timers tag).handler, readings with
        -- the reading right before the handler, which a recurring timer is queued again with
        | some handler, prevExpiry :: readings =>
          ((q.handleOneExpiry tag prevExpiry).expiryLoop readings).map fun (q', invocations) =>
            (q', ⟨tag, handler, (q.timers tag).expiry, now, prevExpiry⟩ :: invocations)
        | _, _ => none
    else none

/-- `HandleExpiry()` -/
def handleExpiry (q : TimerQueue H) (readings : List ℕ) (settime : Bool) :
    Option (TimerQueue H × List (Invocation H)) :=
  (q.expiryLoop readings).map fun (q, invocations) => (q.primeTimerFd settime, invocations)

/-- A queue for which `HandleExpiry()` is called: well formed, with no release pending. The table
has no entry for `kInvalidTimerTag`, so no queued timer has it. -/
structure Ready (q : TimerQueue H) : Prop extends q.WellFormed where
  valid : ∀ tag ∈ q.queuedTags, tag ≠ kInvalidTimerTag
  noRelease : q.releaseHandlerMemory = false

/-- What a call of `HandleExpiry()` has done. -/
structure ExpiriesHandled (q : TimerQueue H) (readings : List ℕ) (settime : Bool)
    (q' : TimerQueue H) (invocations : List (Invocation H)) : Prop where
  /-- The handlers of queued timers were called in the order of the expiries, none too early. -/
  ownHandler : ∀ i ∈ invocations,
    i.tag ∈ q.queuedTags ∧ (q.timers i.tag).handler = some i.handler
  inOrder : invocations.Pairwise fun i j => i.expiry ≤ j.expiry
  notEarly : ∀ i ∈ invocations, i.expiry ≤ i.now ∧ i.now ≤ i.prevExpiry
  /-- No timer that had expired at the first reading was passed over. -/
  expired : ∀ entry ∈ q.queuedTimers, ∀ first ∈ readings.head?, entry.expiry ≤ first →
    entry.tag ∈ invocations.map (·.tag)
  /-- A one-shot timer was called once and is gone. -/
  oneShot : ∀ i ∈ invocations, (q.timers i.tag).interval = 0 →
    (invocations.map (·.tag)).count i.tag = 1 ∧ i.tag ∉ q'.queuedTags
  /-- A recurring timer is queued once, an interval after its last call. -/
  recurring : ∀ i ∈ invocations, (q.timers i.tag).interval ≠ 0 →
    q'.queuedTags.count i.tag = 1 ∧
      ∃ last ∈ (invocations.filter (·.tag = i.tag)).getLast?,
        ⟨last.prevExpiry + (q.timers i.tag).interval, i.tag⟩ ∈ q'.queuedTimers
  /-- The other timers are as they were. -/
  others : ∀ tag ∉ invocations.map (·.tag), q'.timers tag = q.timers tag ∧
    ∀ entry : QueuedTimerEntry, entry.tag = tag →
      q'.queuedTimers.count entry = q.queuedTimers.count entry
  /-- The next timer had not expired at the last reading, and the timerfd is set to its expiry. -/
  front : ∀ front ∈ q'.queuedTimers.head?, (∃ last ∈ readings.getLast?, last < front.expiry) ∧
    q'.timerFd = if settime then front.expiry else q.timerFd
  wellFormed : q'.WellFormed

/-! ## One turn -/

/-- One turn of the loop, for a timer that is queued. -/
structure Turn (q : TimerQueue H) (tag : TimerTag) (prevExpiry : ℕ) (q' : TimerQueue H) :
    Prop where
  ready : q'.Ready
  mem : ∀ entry, entry ∈ q'.queuedTimers ↔
    ((q.timers tag).interval ≠ 0 ∧ entry = ⟨prevExpiry + (q.timers tag).interval, tag⟩) ∨
      (entry ∈ q.queuedTimers ∧ entry.tag ≠ tag)
  others : ∀ t, t ≠ tag → q'.timers t = q.timers t
  interval : (q'.timers tag).interval = (q.timers tag).interval
  handler : (q'.timers tag).handler = (q.timers tag).handler
  timerFd : q'.timerFd = q.timerFd

/-- What `HandleOneExpiry()` does to a timer that is queued: a one-shot timer is removed, a
recurring one gets its next expiry. -/
theorem Ready.turn (h : q.Ready) {tag : TimerTag} (htag : tag ∈ q.queuedTags) (prevExpiry : ℕ) :
    q.Turn tag prevExpiry (q.handleOneExpiry tag prevExpiry) := by
  -- the entry of the timer after its handler has returned
  have hdone : ∃ b : TimerQueue H, b.queuedTimers = q.queuedTimers ∧ b.timerFd = q.timerFd ∧
      b.releaseHandlerMemory = false ∧ b.timers = Function.update q.timers tag
        { q.timers tag with inProgress := false } ∧
      q.handleOneExpiry tag prevExpiry =
        if (q.timers tag).interval = 0 then (b.removeTimerFromQueue tag).1
        else b.updateTimerExpiry tag (prevExpiry + (q.timers tag).interval)
          (q.timers tag).interval := by
    refine ⟨q.setTimer tag { q.timers tag with inProgress := false }, rfl, rfl, h.noRelease, rfl,
      ?_⟩
    have hrelease : (q.beginOneExpiry tag).releaseHandlerMemory = false := h.noRelease
    rw [handleOneExpiry, endOneExpiry_eq, hrelease]
    simp [beginOneExpiry, setTimer]
  have hwellFormed : (q.handleOneExpiry tag prevExpiry).WellFormed :=
    (h.toWellFormed.beginOneExpiry tag).endOneExpiry tag prevExpiry
  obtain ⟨b, hqueue, hfd, hrelease, htimers, heq⟩ := hdone
  have hdistinct : b.queuedTags.Nodup := by
    rw [queuedTags, hqueue]
    exact h.distinct
  have hself : b.timers tag = { q.timers tag with inProgress := false } := by
    rw [htimers, Function.update_self]
  have hothers : ∀ t, t ≠ tag → b.timers t = q.timers t := by
    intro t ht
    rw [htimers, Function.update_of_ne ht]
  have htag' : tag ∈ b.queuedTags := by
    rw [queuedTags, hqueue]
    exact htag
  by_cases honeShot : (q.timers tag).interval = 0
  · rw [if_pos honeShot] at heq
    obtain ⟨queuedTimers, hperm, hremove⟩ := b.removeTimerFromQueue_spec tag
    have hmem : ∀ entry, entry ∈ (b.removeTimerFromQueue tag).1.queuedTimers ↔
        entry ∈ b.queuedTimers ∧ entry.tag ≠ tag :=
      fun entry => mem_removeTimerFromQueue hdistinct
    rw [heq] at hwellFormed ⊢
    rw [hremove] at hwellFormed hmem ⊢
    refine ⟨⟨hwellFormed, ?_, hrelease⟩, ?_, hothers, ?_, ?_, hfd⟩
    · intro t ht
      have hold : t ∈ b.queuedTags := List.mem_of_mem_erase (hperm.subset ht)
      rw [queuedTags, hqueue] at hold
      exact h.valid t hold
    · intro entry
      rw [hmem, hqueue]
      simp [honeShot]
    · simp [hself]
    · simp [hself]
  · rw [if_neg honeShot] at heq
    obtain ⟨queuedTimers, hperm, hupdate⟩ := b.updateTimerExpiry_spec tag
      (prevExpiry + (q.timers tag).interval) (q.timers tag).interval
    have hmem : ∀ entry, entry ∈ (b.updateTimerExpiry tag
        (prevExpiry + (q.timers tag).interval) (q.timers tag).interval).queuedTimers ↔
          (entry = ⟨prevExpiry + (q.timers tag).interval, tag⟩ ∧ tag ∈ b.queuedTags) ∨
            (entry ∈ b.queuedTimers ∧ entry.tag ≠ tag) :=
      fun entry => mem_updateTimerExpiry hdistinct
    rw [heq] at hwellFormed ⊢
    rw [hupdate] at hwellFormed hmem ⊢
    refine ⟨⟨hwellFormed, ?_, hrelease⟩, ?_, ?_, ?_, ?_, hfd⟩
    · intro t ht
      have hold : t ∈ b.queuedTags := hperm.subset ht
      rw [queuedTags, hqueue] at hold
      exact h.valid t hold
    · intro entry
      rw [hmem, hqueue]
      simp [honeShot, htag']
    · intro t ht
      simp [setTimer, ht, hothers t ht]
    · simp [setTimer]
    · simp [setTimer, hself]

namespace Turn

variable {tag : TimerTag} {prevExpiry : ℕ}

/-- A turn changes no interval. -/
theorem interval_eq (h : q.Turn tag prevExpiry q') (t : TimerTag) :
    (q'.timers t).interval = (q.timers t).interval := by
  by_cases ht : t = tag
  · rw [ht]
    exact h.interval
  · rw [h.others t ht]

/-- A turn changes no handler. -/
theorem handler_eq (h : q.Turn tag prevExpiry q') (t : TimerTag) :
    (q'.timers t).handler = (q.timers t).handler := by
  by_cases ht : t = tag
  · rw [ht]
    exact h.handler
  · rw [h.others t ht]

/-- A turn queues no timer that was not queued. -/
theorem mem_queuedTags (h : q.Turn tag prevExpiry q') (htag : tag ∈ q.queuedTags) {t : TimerTag}
    (ht : t ∈ q'.queuedTags) : t ∈ q.queuedTags := by
  obtain ⟨entry, hentry, rfl⟩ := List.mem_map.mp ht
  rcases (h.mem entry).mp hentry with ⟨-, rfl⟩ | ⟨hold, -⟩
  · exact htag
  · exact List.mem_map_of_mem hold

/-- The entries of the other timers stay. -/
theorem mem_of_ne (h : q.Turn tag prevExpiry q') {entry : QueuedTimerEntry}
    (hne : entry.tag ≠ tag) : entry ∈ q'.queuedTimers ↔ entry ∈ q.queuedTimers := by
  rw [h.mem]
  constructor
  · rintro (⟨-, rfl⟩ | ⟨hold, -⟩)
    · exact absurd rfl hne
    · exact hold
  · exact fun hold => .inr ⟨hold, hne⟩

/-- A one-shot timer is not queued any more. -/
theorem not_mem_of_oneShot (h : q.Turn tag prevExpiry q') (honeShot : (q.timers tag).interval = 0) :
    tag ∉ q'.queuedTags := by
  intro ht
  obtain ⟨entry, hentry, rfl⟩ := List.mem_map.mp ht
  rcases (h.mem entry).mp hentry with ⟨hinterval, -⟩ | ⟨-, hne⟩
  · exact hinterval honeShot
  · exact hne rfl

/-- What bounds the expiries from below and the clock too, still bounds the expiries. -/
theorem le_expiry (h : q.Turn tag prevExpiry q') {bound : ℕ} (hbound : bound ≤ prevExpiry)
    (hqueue : ∀ entry ∈ q.queuedTimers, bound ≤ entry.expiry) :
    ∀ entry ∈ q'.queuedTimers, bound ≤ entry.expiry := by
  intro entry hentry
  rcases (h.mem entry).mp hentry with ⟨-, rfl⟩ | ⟨hold, -⟩
  · exact hbound.trans (Nat.le_add_right _ _)
  · exact hqueue entry hold

end Turn

/-! ## The turns of the loop -/

/-- The loop, turn by turn. -/
inductive Loop : TimerQueue H → List ℕ → TimerQueue H → List (Invocation H) → Prop
  | empty {q : TimerQueue H} (hqueue : q.queuedTimers = []) : Loop q [] q []
  | pending {q : TimerQueue H} {front : QueuedTimerEntry} {rest : List QueuedTimerEntry} {now : ℕ}
      (hqueue : q.queuedTimers = front :: rest) (hnow : now < front.expiry) : Loop q [now] q []
  | turn {q q' : TimerQueue H} {front : QueuedTimerEntry} {rest : List QueuedTimerEntry}
      {now prevExpiry : ℕ} {handler : H} {readings : List ℕ} {invocations : List (Invocation H)}
      (hqueue : q.queuedTimers = front :: rest) (hexpired : front.expiry ≤ now)
      (hhandler : (q.timers front.tag).handler = some handler)
      (hloop : Loop (q.handleOneExpiry front.tag prevExpiry) readings q' invocations) :
      Loop q (now :: prevExpiry :: readings) q'
        (⟨front.tag, handler, front.expiry, now, prevExpiry⟩ :: invocations)

/-- The loop looks at the expiry of the front. -/
theorem Ready.nextExpired_eq (h : q.Ready) {front : QueuedTimerEntry} {rest : List QueuedTimerEntry}
    (hqueue : q.queuedTimers = front :: rest) (now : ℕ) :
    q.nextExpired now = if front.expiry ≤ now then some front.tag else none := by
  have hfront : front ∈ q.queuedTimers := by simp [hqueue]
  have hvalid := h.valid front.tag (List.mem_map_of_mem hfront)
  simp [nextExpired, hqueue, isExpired, hvalid, ← h.agrees front hfront]

/-- The loop does not read the clock only if the queue is empty. -/
theorem Ready.queuedTimers_eq_nil (h : q.Ready) (hreads : ¬ q.readsClock = true) :
    q.queuedTimers = [] := by
  cases hqueue : q.queuedTimers with
  | nil => rfl
  | cons front rest =>
    have hvalid := h.valid front.tag (by simp [queuedTags, hqueue])
    simp [readsClock, hqueue, hvalid] at hreads

/-- If the loop reads the clock, there is a front. -/
theorem exists_front_of_readsClock (hreads : q.readsClock = true) :
    ∃ front rest, q.queuedTimers = front :: rest := by
  cases hqueue : q.queuedTimers with
  | nil => simp [readsClock, hqueue] at hreads
  | cons front rest => exact ⟨front, rest, rfl⟩

/-- The loop of a queue that is ready is made of turns. -/
theorem Ready.loop (h : q.Ready) (hloop : q.expiryLoop readings = some (q', invocations)) :
    Loop q readings q' invocations := by
  -- the cases are those of the loop: a wrong number of readings, the end, a turn
  induction q, readings using expiryLoop.induct generalizing q' invocations with
  | case1 q hreads => simp [expiryLoop, hreads] at hloop
  | case2 q hreads =>
    obtain ⟨rfl, rfl⟩ : q = q' ∧ [] = invocations := by simpa [expiryLoop, hreads] using hloop
    exact .empty (h.queuedTimers_eq_nil hreads)
  | case3 q now hreads hnext =>
    obtain ⟨rfl, rfl⟩ : q = q' ∧ [] = invocations := by
      simpa [expiryLoop, hreads, hnext] using hloop
    obtain ⟨front, rest, hqueue⟩ := exists_front_of_readsClock hreads
    rw [h.nextExpired_eq hqueue] at hnext
    exact .pending hqueue (by simpa using hnext)
  | case4 q now readings hreads hnext hmore => simp [expiryLoop, hreads, hnext, hmore] at hloop
  | case5 q now hreads tag hnext handler prevExpiry readings hhandler ih =>
    obtain ⟨front, rest, hqueue⟩ := exists_front_of_readsClock hreads
    have hfront : front ∈ q.queuedTimers := by simp [hqueue]
    rw [expiryLoop, if_pos hreads, hnext] at hloop
    simp only [hhandler] at hloop
    obtain ⟨⟨q₁, invocations₁⟩, hrest, heq⟩ := Option.map_eq_some_iff.mp hloop
    obtain ⟨rfl, rfl⟩ := Prod.mk.inj heq
    rw [h.nextExpired_eq hqueue] at hnext
    obtain ⟨hexpired, ⟨⟩⟩ := Option.ite_none_right_eq_some.mp hnext
    -- the expiry in the queue is that of the table
    rw [← h.agrees front hfront]
    exact .turn hqueue hexpired hhandler
      (ih (h.turn (List.mem_map_of_mem hfront) prevExpiry).ready hrest)
  | case6 q now readings hreads tag hnext hnone =>
    rw [expiryLoop, if_pos hreads, hnext] at hloop
    dsimp only at hloop
    split at hloop
    · rename_i hhandler
      exact (hnone _ _ _ hhandler rfl).elim
    · cases hloop
  | case7 q now readings hreads => simp [expiryLoop, hreads] at hloop

/-- The front is queued. -/
theorem front_mem_queuedTags {front : QueuedTimerEntry} {rest : List QueuedTimerEntry}
    (hqueue : q.queuedTimers = front :: rest) : front.tag ∈ q.queuedTags := by
  simp [queuedTags, hqueue]

namespace Loop

/-- The queue stays ready. -/
theorem ready (hloop : Loop q readings q' invocations) (h : q.Ready) : q'.Ready := by
  induction hloop with
  | empty | pending => exact h
  | turn hqueue _ _ _ ih => exact ih (h.turn (front_mem_queuedTags hqueue) _).ready

/-- The timerfd is not programmed. -/
theorem timerFd (hloop : Loop q readings q' invocations) (h : q.Ready) :
    q'.timerFd = q.timerFd := by
  induction hloop with
  | empty | pending => rfl
  | @turn q q' front rest now prevExpiry _ _ _ hqueue _ _ _ ih =>
    have hturn := h.turn (front_mem_queuedTags hqueue) prevExpiry
    exact (ih hturn.ready).trans hturn.timerFd

/-- The handlers that are called are the ones that the queued timers had. -/
theorem ownHandler (hloop : Loop q readings q' invocations) (h : q.Ready) :
    ∀ i ∈ invocations, i.tag ∈ q.queuedTags ∧ (q.timers i.tag).handler = some i.handler := by
  induction hloop with
  | empty | pending => exact nofun
  | @turn q q' front rest now prevExpiry _ _ _ hqueue _ hhandler _ ih =>
    have hfront := front_mem_queuedTags hqueue
    have hturn := h.turn hfront prevExpiry
    intro i hi
    rcases List.mem_cons.mp hi with rfl | hi
    · exact ⟨hfront, hhandler⟩
    -- a later turn finds the handlers and the queued timers of this one
    · obtain ⟨hqueued, hown⟩ := ih hturn.ready i hi
      exact ⟨hturn.mem_queuedTags hfront hqueued, hturn.handler_eq i.tag ▸ hown⟩

/-- A timer whose handler is not called is not touched. -/
theorem others (hloop : Loop q readings q' invocations) (h : q.Ready) :
    ∀ tag ∉ invocations.map (·.tag), q'.timers tag = q.timers tag ∧
      ∀ entry : QueuedTimerEntry, entry.tag = tag →
        (entry ∈ q'.queuedTimers ↔ entry ∈ q.queuedTimers) := by
  induction hloop with
  | empty | pending => exact fun _ _ => ⟨rfl, fun _ _ => .rfl⟩
  | @turn q q' front rest now prevExpiry _ _ invocations hqueue _ _ _ ih =>
    have hturn := h.turn (front_mem_queuedTags hqueue) prevExpiry
    intro tag htag
    obtain ⟨hne, hrest⟩ : tag ≠ front.tag ∧ tag ∉ invocations.map (·.tag) := by
      simpa only [List.map_cons, List.mem_cons, not_or] using htag
    obtain ⟨htimers, hentries⟩ := ih hturn.ready tag hrest
    refine ⟨htimers.trans (hturn.others tag hne), fun entry hentry => ?_⟩
    exact (hentries entry hentry).trans (hturn.mem_of_ne (hentry ▸ hne))

/-- No timer expires before all the expiries and all the readings. -/
theorem le_expiry (hloop : Loop q readings q' invocations) (h : q.Ready) {bound : ℕ}
    (hqueued : ∀ entry ∈ q.queuedTimers, bound ≤ entry.expiry)
    (hreadings : ∀ reading ∈ readings, bound ≤ reading) :
    ∀ i ∈ invocations, bound ≤ i.expiry := by
  induction hloop with
  | empty | pending => exact nofun
  | @turn q q' front rest now prevExpiry _ _ _ hqueue _ _ _ ih =>
    have hturn := h.turn (front_mem_queuedTags hqueue) prevExpiry
    intro i hi
    rcases List.mem_cons.mp hi with rfl | hi
    · exact hqueued front (by simp [hqueue])
    · refine ih hturn.ready (hturn.le_expiry (hreadings prevExpiry (by simp)) hqueued) ?_ i hi
      exact fun reading hreading => hreadings reading (by simp [hreading])

/-- The handlers are called in the order of the expiries. -/
theorem inOrder (hloop : Loop q readings q' invocations) (h : q.Ready)
    (hclock : readings.Pairwise (· ≤ ·)) :
    invocations.Pairwise fun i j => i.expiry ≤ j.expiry := by
  induction hloop with
  | empty | pending => exact .nil
  | @turn q q' front rest now prevExpiry _ readings _ hqueue hexpired _ hrest ih =>
    have hturn := h.turn (front_mem_queuedTags hqueue) prevExpiry
    obtain ⟨hnow, hclock⟩ := List.pairwise_cons.mp hclock
    obtain ⟨hprev, hclock⟩ := List.pairwise_cons.mp hclock
    -- a recurring timer is queued again behind the expiry that is handled
    have hbound : front.expiry ≤ prevExpiry := hexpired.trans (hnow prevExpiry (by simp))
    have hheap : ∀ entry ∈ q.queuedTimers, front.expiry ≤ entry.expiry := by
      have hmin := h.heap
      rw [hqueue] at hmin ⊢
      exact fun entry hentry => hmin.front_le hentry
    refine List.pairwise_cons.mpr ⟨?_, ih hturn.ready hclock⟩
    exact hrest.le_expiry hturn.ready (hturn.le_expiry hbound hheap)
      fun reading hreading => hbound.trans (hprev reading hreading)

/-- No handler is called before the expiry of its timer. -/
theorem notEarly (hloop : Loop q readings q' invocations) (hclock : readings.Pairwise (· ≤ ·)) :
    ∀ i ∈ invocations, i.expiry ≤ i.now ∧ i.now ≤ i.prevExpiry := by
  induction hloop with
  | empty | pending => exact nofun
  | turn _ hexpired _ _ ih =>
    obtain ⟨hnow, hclock⟩ := List.pairwise_cons.mp hclock
    intro i hi
    rcases List.mem_cons.mp hi with rfl | hi
    · exact ⟨hexpired, hnow _ (by simp)⟩
    · exact ih (List.pairwise_cons.mp hclock).2 i hi

/-- A one-shot timer is called once, and is not queued after that. -/
theorem oneShot (hloop : Loop q readings q' invocations) (h : q.Ready) :
    ∀ i ∈ invocations, (q.timers i.tag).interval = 0 →
      (invocations.map (·.tag)).count i.tag = 1 ∧ i.tag ∉ q'.queuedTags := by
  induction hloop with
  | empty | pending => exact nofun
  | @turn q q' front rest now prevExpiry _ readings invocations hqueue _ _ hrest ih =>
    have hturn := h.turn (front_mem_queuedTags hqueue) prevExpiry
    -- the timer of this turn, if it is one-shot, is not called again
    have hgone : (q.timers front.tag).interval = 0 →
        front.tag ∉ invocations.map (·.tag) ∧ front.tag ∉ q'.queuedTags := by
      intro honeShot
      have hnot := hturn.not_mem_of_oneShot honeShot
      have hcalled : front.tag ∉ invocations.map (·.tag) := by
        intro hmem
        obtain ⟨i, hi, htag⟩ := List.mem_map.mp hmem
        exact hnot (htag ▸ (hrest.ownHandler hturn.ready i hi).1)
      refine ⟨hcalled, fun hmem => hnot ?_⟩
      obtain ⟨entry, hentry, htag⟩ := List.mem_map.mp hmem
      have hold := ((hrest.others hturn.ready front.tag hcalled).2 entry htag).mp hentry
      exact List.mem_map.mpr ⟨entry, hold, htag⟩
    intro i hi honeShot
    rcases List.mem_cons.mp hi with rfl | hi
    · obtain ⟨hcalled, hqueued⟩ := hgone honeShot
      exact ⟨by simp [List.count_eq_zero_of_not_mem hcalled], hqueued⟩
    · have hne : front.tag ≠ i.tag := by
        intro heq
        rw [← heq] at honeShot
        exact (hgone honeShot).1 (heq ▸ List.mem_map_of_mem hi)
      obtain ⟨hcount, hqueued⟩ := ih hturn.ready i hi ((hturn.interval_eq i.tag).trans honeShot)
      exact ⟨by simp [List.count_cons_of_ne hne, hcount], hqueued⟩

/-- A recurring timer is queued, an interval after its last call. -/
theorem recurring (hloop : Loop q readings q' invocations) (h : q.Ready) :
    ∀ tag ∈ invocations.map (·.tag), (q.timers tag).interval ≠ 0 →
      ∃ last ∈ (invocations.filter (·.tag = tag)).getLast?,
        ⟨last.prevExpiry + (q.timers tag).interval, tag⟩ ∈ q'.queuedTimers := by
  induction hloop with
  | empty | pending => exact nofun
  | @turn q q' front rest now prevExpiry handler _ invocations hqueue _ _ hrest ih =>
    have hturn := h.turn (front_mem_queuedTags hqueue) prevExpiry
    intro tag htag hinterval
    by_cases hagain : tag ∈ invocations.map (·.tag)
    · -- its last call is in a later turn
      have hkept := hturn.interval_eq tag
      obtain ⟨last, hlast, hentry⟩ := ih hturn.ready tag hagain (hkept ▸ hinterval)
      refine ⟨last, ?_, hkept ▸ hentry⟩
      simp only [List.filter_cons]
      split
      · rw [Option.mem_def] at hlast ⊢
        rw [List.getLast?_cons, hlast]
        rfl
      · exact hlast
    · -- its last call is the one of this turn
      obtain rfl : tag = front.tag := by simpa [hagain] using htag
      have hnone : invocations.filter (·.tag = front.tag) = [] := by
        refine List.filter_eq_nil_iff.mpr fun i hi => ?_
        have hne : i.tag ≠ front.tag := fun heq => hagain (heq ▸ List.mem_map_of_mem hi)
        simpa using hne
      refine ⟨⟨front.tag, handler, front.expiry, now, prevExpiry⟩, by simp [hnone], ?_⟩
      obtain ⟨-, hentries⟩ := hrest.others hturn.ready front.tag hagain
      have hentry := hentries ⟨prevExpiry + (q.timers front.tag).interval, front.tag⟩ rfl
      rw [hentry, hturn.mem]
      exact .inl ⟨hinterval, rfl⟩

/-- The next timer had not expired at the last reading. -/
theorem front_pending (hloop : Loop q readings q' invocations) :
    ∀ front ∈ q'.queuedTimers.head?, ∃ last ∈ readings.getLast?, last < front.expiry := by
  induction hloop with
  | empty hqueue => simp [hqueue]
  | pending hqueue hnow => simpa [hqueue] using hnow
  | turn _ _ _ _ ih =>
    intro front hfront
    obtain ⟨last, hlast, hpending⟩ := ih front hfront
    rw [Option.mem_def] at hlast
    exact ⟨last, by simp [List.getLast?_cons, hlast], hpending⟩

/-- A timer that had expired at the first reading was called: otherwise it would still be queued,
and the front that the last reading found would expire before it. -/
theorem expired (hloop : Loop q readings q' invocations) (h : q.Ready)
    (hclock : readings.Pairwise (· ≤ ·)) :
    ∀ entry ∈ q.queuedTimers, ∀ first ∈ readings.head?, entry.expiry ≤ first →
      entry.tag ∈ invocations.map (·.tag) := by
  intro entry hentry first hfirst hexpired
  by_contra hnot
  have hleft := ((hloop.others h entry.tag hnot).2 entry rfl).mpr hentry
  have hmin := (hloop.ready h).heap
  cases hqueue : q'.queuedTimers with
  | nil =>
    rw [hqueue] at hleft
    cases hleft
  | cons front rest =>
    rw [hqueue] at hleft hmin
    obtain ⟨last, hlast, hpending⟩ := hloop.front_pending front (by simp [hqueue])
    have hle : first ≤ last := by
      -- the clock does not go back
      cases readings with
      | nil => cases hfirst
      | cons reading readings =>
        obtain rfl : reading = first := by simpa using hfirst
        rcases List.mem_cons.mp (List.mem_of_mem_getLast? hlast) with rfl | hmem
        · exact Nat.le_refl _
        · exact (List.pairwise_cons.mp hclock).1 last hmem
    have hfront := hmin.front_le hleft
    omega

end Loop

/-! ## The whole call -/

/-- Where two queues without two entries of one timer have the same entries of a timer, they have
them equally often. -/
theorem WellFormed.count_eq (h : q.WellFormed) (h' : q'.WellFormed) {entry : QueuedTimerEntry}
    (hiff : entry ∈ q'.queuedTimers ↔ entry ∈ q.queuedTimers) :
    q'.queuedTimers.count entry = q.queuedTimers.count entry := by
  have hnodup : q.queuedTimers.Nodup := List.Nodup.of_map _ h.distinct
  have hnodup' : q'.queuedTimers.Nodup := List.Nodup.of_map _ h'.distinct
  rw [hnodup.count, hnodup'.count]
  simp only [hiff]

/-- What a call of `HandleExpiry()` has done when it returns: every timer that had expired was
handled, in the order of the expiries, and the timerfd is set for the next one. -/
theorem handle_expiry_correct {settime : Bool} (hready : q.Ready)
    (hclock : readings.Pairwise (· ≤ ·))
    (hreturn : q.handleExpiry readings settime = some (q', invocations)) :
    ExpiriesHandled q readings settime q' invocations := by
  obtain ⟨⟨left, invocations⟩, hloop, heq⟩ := Option.map_eq_some_iff.mp hreturn
  obtain ⟨rfl, rfl⟩ := Prod.mk.inj heq
  have hloop := hready.loop hloop
  have hleft := hloop.ready hready
  -- after the loop only the timerfd changes
  obtain ⟨timerFd, hprime⟩ := left.primeTimerFd_spec settime
  have hqueue : (left.primeTimerFd settime).queuedTimers = left.queuedTimers := by rw [hprime]
  have htimers : (left.primeTimerFd settime).timers = left.timers := by rw [hprime]
  constructor
  case ownHandler => exact hloop.ownHandler hready
  case inOrder => exact hloop.inOrder hready hclock
  case notEarly => exact hloop.notEarly hclock
  case expired => exact hloop.expired hready hclock
  case oneShot =>
    rw [queuedTags, hqueue]
    exact hloop.oneShot hready
  case recurring =>
    intro i hi hinterval
    obtain ⟨last, hlast, hentry⟩ := hloop.recurring hready i.tag (List.mem_map_of_mem hi) hinterval
    rw [queuedTags, hqueue]
    exact ⟨List.count_eq_one_of_mem hleft.distinct (List.mem_map.mpr ⟨_, hentry, rfl⟩),
      last, hlast, hentry⟩
  case others =>
    intro tag htag
    obtain ⟨hsame, hentries⟩ := hloop.others hready tag htag
    rw [htimers, hqueue]
    exact ⟨hsame, fun entry hentry =>
      hready.toWellFormed.count_eq hleft.toWellFormed (hentries entry hentry)⟩
  case front =>
    intro front hfront
    rw [hqueue] at hfront
    refine ⟨hloop.front_pending front hfront, ?_⟩
    obtain ⟨rest, hcons⟩ := List.head?_eq_some_iff.mp hfront
    have hfd := hloop.timerFd hready
    cases settime with
    | false => simpa [primeTimerFd, hcons, updateTimerFd] using hfd
    | true => simp [primeTimerFd, hcons, updateTimerFd]
  case wellFormed => exact hleft.toWellFormed.primeTimerFd settime

/-- The queue of a recurring timer that expires at 10 and then every 5, and of a one-shot timer that
expires at 12. -/
def twoTimers : TimerQueue ℕ :=
  (((((({} : TimerQueue ℕ).reserve 7).1.reserve 8).1.doAddTimer 0 10 5 true).1).doAddTimer
    1 12 0 true).1

/-- Both timers expire, and the recurring one expires a second time in the same call. -/
theorem handle_expiry_correct_two_timers :
    ∃ q' invocations,
      twoTimers.handleExpiry [12, 12, 13, 13, 20, 20, 21] true = some (q', invocations) ∧
      invocations.map (·.tag) = [0, 1, 0] ∧ q'.queuedTimers = [⟨25, 0⟩] ∧
      ExpiriesHandled twoTimers [12, 12, 13, 13, 20, 20, 21] true q' invocations := by
  have hwellFormed : twoTimers.WellFormed := by
    have hreserved := ((WellFormed.empty (H := ℕ)).reserve 7).reserve 8
    exact (hreserved.doAddTimer (by decide) 10 5 true).doAddTimer (by decide) 12 0 true
  have hready : twoTimers.Ready := ⟨hwellFormed, by decide, by decide⟩
  refine ⟨_, _, rfl, by decide, by decide, ?_⟩
  exact handle_expiry_correct hready (by decide) rfl

end TimerQueue

end Asrt.Timer
