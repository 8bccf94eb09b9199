import Asrt.Socket.CachedState

/-!
# The mode of an asynchronous socket

A socket may start asynchronous operations if it has a reactor and says to be non-blocking. The flag
may be wrong after the socket was closed and opened again, but with a reactor only in one direction:
the socket may say to be blocking although its descriptor is not.

## Main results

- `async_descriptor_nonBlocking`: a socket with a reactor that says to be non-blocking does not have
  a blocking descriptor.
-/

namespace Asrt.Socket.KernelAgreement

open Reactor ToMathlib

namespace State

variable {σ τ : State} {opening : Opening} {fd : NativeHandle} {tag : Option HandlerTag}
  {matching succeeds : Bool}

/-! ## The mode of a socket with a reactor -/

/-- The handler that returns, if any, does not close the descriptor of the open socket. -/
def Undisturbed (σ : State) (a : Action) : Prop :=
  a = .endHandler → σ.base.isClosed = false → σ.registration ≠ .closing σ.handle

instance (σ : State) (a : Action) : Decidable (σ.Undisturbed a) :=
  inferInstanceAs (Decidable (_ → _))

/-- The descriptor of an open socket is non-blocking if the socket says so. -/
def Reliable (σ : State) : Prop :=
  σ.hasReactor = true → σ.base.isClosed = false →
    ∃ description, σ.kernel σ.handle = some description ∧
      (σ.isNonBlocking = true → description.nonBlocking = true)

theorem reliable_of_isClosed (hclosed : σ.base.isClosed = true) : σ.Reliable := by
  intro _ hopen
  rw [hclosed] at hopen
  cases hopen

theorem Reliable.congr (h : σ.Reliable) (hentry : SameEntry σ τ) (hhandle : τ.handle = σ.handle)
    (hmode : τ.isNonBlocking = σ.isNonBlocking)
    (hkernel : τ.base.isClosed = false → τ.kernel σ.handle = σ.kernel σ.handle) : τ.Reliable := by
  intro hreactor hopen
  obtain ⟨description, hdescription, hsays⟩ :=
    h (hentry.hasReactor ▸ hreactor) (hentry.isClosed hopen)
  refine ⟨description, ?_, ?_⟩
  · rw [hhandle, hkernel hopen, hdescription]
  · rw [hmode]
    exact hsays

/-- A call on the descriptor that sets the mode of the socket as it sets that of the descriptor, if
at all. -/
theorem Reliable.systemCall {ρ : State} {effect : Description → Description} (h : σ.Reliable)
    (hcall : σ.systemCall succeeds effect = some τ) (hentry : SameEntry σ ρ)
    (hhandle : ρ.handle = τ.handle) (hkernel : ρ.kernel = τ.kernel)
    (hmode : ∀ description, (σ.isNonBlocking = true → description.nonBlocking = true) →
      ρ.isNonBlocking = true → (effect description).nonBlocking = true) : ρ.Reliable := by
  obtain ⟨description, hdescription, rfl⟩ := systemCall_eq_some hcall
  intro hreactor hopen
  obtain ⟨description', hdescription', hsays⟩ :=
    h (hentry.hasReactor ▸ hreactor) (hentry.isClosed hopen)
  rw [hdescription] at hdescription'
  obtain rfl := Option.some.inj hdescription'
  refine ⟨effect description, ?_, hmode description hsays⟩
  rw [hkernel, hhandle]
  exact Function.update_self ..

/-- A new descriptor of a socket with a reactor is non-blocking. -/
theorem reliable_assignNativeHandle {nonBlocking : Bool}
    (hmode : σ.hasReactor = true → nonBlocking = true)
    (hclosed : σ.registers = true → σ.base.isClosed = true) :
    ((σ.setKernel fd (some { nonBlocking })).assignNativeHandle fd tag).Reliable := by
  rcases assigned_or_failed (σ.setKernel fd (some { nonBlocking })) fd tag with
    hassigned | ⟨hregisters, hstate, -⟩
  · intro hreactor _
    refine ⟨{ nonBlocking }, ?_, fun _ => hmode ?_⟩
    · rw [hassigned.handle, hassigned.kernel, setKernel_kernel_self]
    · exact hassigned.hasReactor.symm.trans hreactor
  · refine reliable_of_isClosed ?_
    rw [BasicSocket.isClosed, hstate]
    exact hclosed hregisters

theorem Reliable.tryOpenSocket (h : σ.Reliable) : (σ.tryOpenSocket opening).Reliable := by
  unfold State.tryOpenSocket doOpenSocket
  split
  · rename_i hclosed
    split
    · exact h
    · exact reliable_assignNativeHandle id fun _ => hclosed
  · exact h

theorem Reliable.callOpened {effect : Description → Description} {keep : State → State}
    (h : σ.Reliable) (hkeep : Follows effect keep)
    (hentry : ∀ σ, σ.base.isClosed = false → SameEntry σ (keep σ)) :
    (σ.callOpened matching succeeds effect keep).Reliable := by
  unfold State.callOpened
  split
  · rename_i hcond
    split
    · rename_i τ hcall
      have hsame := sameEntry_systemCall hcall
      obtain ⟨description, -, hτ⟩ := systemCall_eq_some hcall
      have hopen : τ.base.isClosed = false := by
        rw [hτ]
        simpa using (Bool.and_eq_true_iff.mp hcond).1
      refine h.systemCall hcall (hsame.trans (hentry τ hopen)) (hkeep.handle τ) (hkeep.kernel τ) ?_
      intro description hsays hmode
      rw [hkeep.mode]
      refine hsays ?_
      rw [hkeep.isNonBlocking, hτ] at hmode
      exact hmode
    · exact h
  · exact h

theorem Reliable.close (h : σ.Reliable) (stale : Deregistration) :
    (σ.close stale succeeds).Reliable := by
  unfold State.close
  split
  · exact h
  dsimp only
  split
  · split
    · exact reliable_of_isClosed rfl
    · exact h
    · exact h
    · split
      · exact h
      · exact h
      · exact reliable_of_isClosed rfl
  · -- there is no reactor
    rename_i hreactor
    intro hreactor'
    refine absurd ?_ hreactor
    split at hreactor' <;> exact hreactor'

theorem Reliable.toggle (h : σ.Reliable) (enable gets sets : Bool) :
    (σ.toggleNonBlockingModeInternal enable gets sets).Reliable := by
  unfold toggleNonBlockingModeInternal
  split
  · exact h
  split
  · exact h
  split
  · exact h
  split
  · -- the socket says to be blocking
    rename_i hmode
    intro hreactor hopen
    obtain ⟨description, hdescription, -⟩ := h hreactor hopen
    refine ⟨description, hdescription, fun hsays => ?_⟩
    have henable : (!enable) = true := (Bool.and_eq_true_iff.mp hmode).1
    have hsays' : enable = true := hsays
    rw [hsays'] at henable
    cases henable
  · split
    · rename_i τ hcall
      exact h.systemCall hcall ((sameEntry_systemCall hcall).trans ⟨rfl, rfl, id⟩) rfl rfl
        fun _ _ hsays => hsays
    · exact h

/-- Every step keeps the flag of a socket with a reactor reliable, unless it closes the descriptor
underneath. -/
theorem Reliable.step (h : σ.Reliable) (hhandle : σ.HasHandle) {a : Action}
    (ha : σ.Undisturbed a) (hstep : σ.step a = some τ) : τ.Reliable := by
  cases a with
  | openSocket opening =>
    obtain ⟨-, ⟨⟩⟩ := Option.ite_none_right_eq_some.mp hstep
    exact h.tryOpenSocket
  | bind opening matching succeeds =>
    obtain ⟨-, ⟨⟩⟩ := Option.ite_none_right_eq_some.mp hstep
    unfold State.bind
    split
    · exact h
    · exact h.tryOpenSocket.callOpened follows_setBound fun _ hopen => ⟨rfl, rfl, fun _ => hopen⟩
  | setDefaultPeer opening matching succeeds =>
    obtain ⟨-, ⟨⟩⟩ := Option.ite_none_right_eq_some.mp hstep
    exact h.tryOpenSocket.callOpened follows_setPeer fun _ _ => ⟨rfl, rfl, id⟩
  | assignAcceptedHandle fd tag =>
    obtain ⟨-, ⟨⟩⟩ := Option.ite_none_right_eq_some.mp hstep
    exact reliable_assignNativeHandle (fun _ => rfl) hhandle.isClosed
  | close stale succeeds =>
    obtain rfl := Option.some.inj hstep
    exact h.close stale
  | setBlocking gets sets =>
    obtain rfl := Option.some.inj hstep
    unfold State.setBlocking
    split
    · exact h.toggle false gets sets
    · exact h
  | setNonBlocking gets sets =>
    obtain rfl := Option.some.inj hstep
    unfold State.setNonBlocking
    split
    · exact h
    · exact h.toggle true gets sets
  | removeDefaultPeer succeeds =>
    obtain rfl := Option.some.inj hstep
    unfold State.removeDefaultPeer
    split
    · split
      · rename_i τ hcall
        refine h.systemCall hcall ((sameEntry_systemCall hcall).trans ⟨rfl, rfl, id⟩) rfl rfl ?_
        intro description hsays hmode
        obtain ⟨_, -, hτ⟩ := systemCall_eq_some hcall
        have hsame : τ.isNonBlocking = σ.isNonBlocking := by rw [hτ]
        exact hsays (hsame.symm.trans hmode)
      · exact h
    · exact h
  | beginHandler =>
    simp only [State.step] at hstep
    split at hstep
    · obtain rfl := Option.some.inj hstep
      exact h
    all_goals cases hstep
  | endHandler =>
    simp only [State.step] at hstep
    split at hstep
    · obtain rfl := Option.some.inj hstep
      exact h
    · rename_i fd hregistration
      obtain rfl := Option.some.inj hstep
      exact h.congr ⟨rfl, rfl, id⟩ rfl rfl fun hopen =>
        setKernel_kernel_of_ne _ (fun heq => ha rfl hopen (hregistration.trans (by rw [heq]))) none
    all_goals cases hstep
  | other fd description =>
    obtain ⟨howns, ⟨⟩⟩ := Option.ite_none_left_eq_some.mp hstep
    exact h.congr ⟨rfl, rfl, id⟩ rfl rfl fun hopen =>
      setKernel_kernel_of_ne _ (fun heq => howns (.inl ⟨hopen, heq⟩)) description

end State

/-! ## Main result -/

/-- An open socket that meets the preconditions of asynchronous operations has a non-blocking
descriptor, however it was opened, closed, assigned to and switched before, as long as no handler
that returns has closed the descriptor underneath. -/
theorem async_descriptor_nonBlocking {σ : State} (hσ : machine.ReachableIn State.Undisturbed σ)
    (hopen : σ.base.isClosed = false) (hasync : σ.isAsyncPreconditionsMet = true) :
    ∃ description, σ.kernel σ.handle = some description ∧ description.nonBlocking = true := by
  have hreliable : σ.Reliable ∧ σ.HasHandle := by
    refine hσ.invariant (I := fun σ => σ.Reliable ∧ σ.HasHandle) ?_ ?_
    · rintro σ ⟨hasReactor, kernel, rfl⟩
      exact ⟨State.reliable_of_isClosed rfl, State.hasHandle_of_isClosed rfl⟩
    · rintro σ a τ ⟨hreliable, hhandle⟩ ha hstep
      exact ⟨hreliable.step hhandle ha hstep, hhandle.step hstep⟩
  obtain ⟨hreactor, hmode⟩ := Bool.and_eq_true_iff.mp hasync
  obtain ⟨description, hdescription, hsays⟩ := hreliable.1 hreactor hopen
  exact ⟨description, hdescription, hsays hmode⟩

/-- A socket that was made blocking, closed, opened again without a registration and made
non-blocking. -/
theorem async_descriptor_nonBlocking_reopened :
    ∃ σ, machine.ReachableIn State.Undisturbed σ ∧ σ.base.isClosed = false ∧
      σ.isAsyncPreconditionsMet = true ∧ σ.handle = 4 ∧
      ∃ description, σ.kernel 4 = some description ∧ description.nonBlocking = true := by
  have hσ := Machine.reachableIn_get_run (M := machine) (C := State.Undisturbed)
    (l := [.openSocket ⟨some 3, some 0⟩, .setBlocking true true, .close .failed true,
      .openSocket ⟨some 4, none⟩, .setNonBlocking true true])
    (⟨true, fun _ => none, rfl⟩ : machine.init { hasReactor := true, kernel := fun _ => none })
    (by decide)
  exact ⟨_, hσ, by decide, by decide, by decide,
    async_descriptor_nonBlocking hσ (by decide) (by decide)⟩

end Asrt.Socket.KernelAgreement
