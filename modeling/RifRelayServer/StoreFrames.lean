import RifRelayServer.SerialRounds
import RifRelayServer.Lib.Restarts

/-!
# What a round leaves alone in the store

A round looks into the store, starts calls and waits for them; it writes the store
only where it looks after the transactions under way. A call that is started has
stored nothing yet.
-/

namespace RifRelayServer

/-- What a call is about to store. -/
def Call.storing? (call : Call) : Option (SignedTransactionDetails × StoredTransaction) :=
  match call.sending? with
  | some (_, .storing signedTransaction storedTx) => some (signedTransaction, storedTx)
  | _ => none

theorem Call.storing?_eq_some_iff {call : Call} {signedTransaction : SignedTransactionDetails}
    {storedTx : StoredTransaction} :
    call.storing? = some (signedTransaction, storedTx) ↔
      ∃ details, call.sending? = some (details, .storing signedTransaction storedTx) := by
  unfold storing?
  split
  next details signed stored hsending => simp [hsending, Prod.ext_iff]
  next hnone =>
    constructor
    · intro h
      cases h
    · rintro ⟨details, hsending⟩
      exact absurd hsending (hnone details signedTransaction storedTx)

theorem Task.storing?_started {server : RelayServer} (task : Task) :
    (task.started server).storing? = none := by
  cases hstoring : (task.started server).storing? with
  | none => rfl
  | some storing =>
      obtain ⟨details, hsending⟩ := Call.storing?_eq_some_iff.mp hstoring
      cases Task.sending?_started hsending

namespace Ticks

open Async Async.Program

section Calls

variable {ρ : Type} {part : TickState → ρ}

theorem spares_findAction (serverAction : ServerAction) :
    (findActionPending serverAction).Spares part :=
  (spares_receive _).bind fun _ => spares_get.bind fun _ => spares_pure _

theorem spares_isActivity : isActivityPending.Spares part := by
  apply (spares_findAction _).bind
  intro isRelayPending
  split
  · exact spares_pure true
  · exact spares_findAction _

variable {server : RelayServer}

theorem spares_registerAgain (currentBlock : ℕ) :
    (shouldRegisterAgain server currentBlock).Spares part := by
  apply spares_isActivity.bind
  intro isPendingActivityTransaction
  dsimp only
  split
  · exact spares_pure false
  · exact spares_get.bind fun _ => spares_pure _

variable (hcalled : ∀ s (call : Call), call.storing? = none → part (s.called call) = part s)

include hcalled

theorem spares_call (task : Task) : (callAndWait server task).Spares part :=
  spares_get.bind fun _ =>
    (spares_modify fun s => hcalled s _ (Task.storing?_started task)).bind fun _ =>
    (spares_receive _).bind fun _ => spares_get.bind fun _ => spares_ofExcept _

theorem spares_sendEthBalance (signer : Address) (currentBlock : ℕ) :
    (sendEthBalanceToOwner server signer currentBlock).Spares part := by
  apply (spares_receive _).bind
  intro withdrawal
  cases withdrawal with
  | none => exact spares_pure ()
  | some withdrawal => exact spares_call hcalled _

theorem spares_withdrawFunds (withdrawManager : Bool) (currentBlock : ℕ) :
    (withdrawAllFunds server withdrawManager currentBlock).Spares part := by
  apply (spares_sendEthBalance hcalled _ currentBlock).bind
  intro _
  split
  · exact spares_sendEthBalance hcalled _ currentBlock
  · exact spares_pure ()

theorem spares_stakeEvent (currentBlock : ℕ) (event : ManagerEvent) :
    (handleStakeEvent server currentBlock event).Spares part := by
  apply (spares_receive _).bind
  intro _
  split
  · exact spares_withdrawFunds hcalled true currentBlock
  · exact spares_pure ()

theorem spares_registration (serverAction : ServerAction) (currentBlock : ℕ) :
    (sendRegistration server serverAction currentBlock).Spares part :=
  (spares_receive _).bind fun _ => spares_call hcalled _

theorem spares_registrations (view : RegistrationView) (currentBlock : ℕ) :
    (attemptRegistration server view currentBlock).Spares part := by
  unfold attemptRegistration
  split
  · exact spares_pure ()
  · apply (spares_findAction _).bind
    intro addWorkersPending
    split
    · exact (spares_registration hcalled _ currentBlock).bind fun _ =>
        spares_registration hcalled _ currentBlock
    · exact spares_registration hcalled _ currentBlock

theorem spares_pastEvents (currentBlock : ℕ) (forceRegistration : Bool) :
    (handlePastEvents server currentBlock forceRegistration).Spares part := by
  refine (spares_receive _).bind fun decodedEvents =>
    (spares_forEach (spares_stakeEvent hcalled currentBlock) decodedEvents).bind fun _ =>
    (spares_receive _).bind fun view =>
    (spares_forEach (fun _ => spares_withdrawFunds hcalled false currentBlock) _).bind fun _ =>
    (spares_findAction _).bind fun isRegistrationPending => ?_
  split
  · exact (spares_registrations hcalled view currentBlock).bind fun _ => spares_pure view
  · exact spares_pure view

end Calls

end Ticks

end RifRelayServer
