import RifRelayServer.Lib.Async
import RifRelayServer.Lib.Occurrences

/-!
# Restarts

A process may end at any moment, and a new one starts from what is left of the state:
the programs are gone. A contract that allows for this is kept over any number of
restarts. What a program was answered in the course of the run can be looked up there.
-/

namespace Runs

variable {σ ε : Type*} {step : σ → ε → Option σ} {allowed : σ → ε → Prop}

theorem Along.append {s t : σ} {earlier later : List ε}
    (h : Along step allowed s (earlier ++ later)) (hrun : run step s earlier = some t) :
    Along step allowed s earlier ∧ Along step allowed t later := by
  induction earlier generalizing s with
  | nil => exact ⟨trivial, Option.some.inj hrun ▸ h⟩
  | cons event earlier ih =>
      obtain ⟨s', hs', hrest⟩ := run_cons_eq_some_iff.mp hrun
      refine ⟨⟨h.1, fun t' ht' => ?_⟩, (ih (h.2 s' hs') hrest).2⟩
      obtain rfl := Option.some.inj (hs'.symm.trans ht')
      exact (ih (h.2 s' hs') hrest).1

/-- A condition on the steps holds along a run where it holds of each event in its place. -/
theorem along_of_occurs {s : σ} {events : List ε}
    (h : ∀ n u event, Occurs step s events n u event → allowed u event) :
    Along step allowed s events := by
  induction events generalizing s with
  | nil => trivial
  | cons event events ih =>
      refine ⟨h 0 s event ⟨rfl, rfl⟩, fun s' hs' => ih fun n u later hlater => ?_⟩
      refine h (n + 1) u later ⟨?_, hlater.event_eq⟩
      exact run_cons_eq_some_iff.mpr ⟨s', hs', hlater.reached⟩

end Runs

namespace Async

open Runs

variable {σ ε κ : Type} {Answer : κ → Type} {τ η : Type}

inductive LifeEvent (τ : Type) {κ : Type} (Answer : κ → Type) (η : Type)
  | restart
  | goesOn (event : Event τ Answer η)

def lifeStep (system : System σ ε Answer τ η) (restart : σ → σ) (state : State σ ε Answer) :
    LifeEvent τ Answer η → Option (State σ ε Answer)
  | .restart => some ⟨restart state.shared, []⟩
  | .goesOn event => step system state event

/-- In the course of the run, a program that waited for the question went on with the answer. -/
def SaidAlong (system : System σ ε Answer τ η) (restart : σ → σ) (start : State σ ε Answer)
    (events : List (LifeEvent τ Answer η)) (question : κ) (answer : Answer question) : Prop :=
  ∃ n state id answers next,
    Occurs (lifeStep system restart) start events n state (.goesOn (.resume id answers)) ∧
      state.programs[id]? = some (.await question next) ∧ answers question = answer

def LifePermitted (permits : (question : κ) → Answer question → Prop) (state : State σ ε Answer) :
    LifeEvent τ Answer η → Prop
  | .restart => True
  | .goesOn event => Permitted (fun _ => permits) state event

variable {system : System σ ε Answer τ η} {restart : σ → σ} {start state state' : State σ ε Answer}
  {events : List (LifeEvent τ Answer η)}

theorem along_answered :
    Along (lifeStep system restart) (LifePermitted (SaidAlong system restart start events)) start
      events := by
  refine along_of_occurs fun n u event hoccurs => ?_
  cases event with
  | restart => trivial
  | goesOn event =>
      cases event with
      | start job => trivial
      | outside event => trivial
      | resume id answers =>
          intro question hquestion
          obtain ⟨program, hprogram, hat⟩ := Option.bind_eq_some_iff.mp hquestion
          cases program with
          | await asked next =>
              obtain rfl := Option.some.inj hat
              exact ⟨n, u, id, answers, next, hoccurs, hprogram, rfl⟩
          | done a => cases hat
          | fail e => cases hat
          | read next => cases hat
          | write s next => cases hat

/-- A contract is kept over restarts where a state to restart from keeps it. -/
theorem Kept.lives {contract : Contract system} {permits : (question : κ) → Answer question → Prop}
    (hkeeps : Keeps system contract) (hpermits : ∀ s question answer,
      permits question answer → contract.Permits s question answer)
    (hrestart : ∀ s, contract.Inv s → contract.Inv (restart s) ∧ contract.Moves s (restart s) ∧
      ∀ id, contract.Idle id (restart s))
    (h : Kept contract state) (hpermitted : Along (lifeStep system restart)
      (LifePermitted permits) state events)
    (hrun : Runs.run (lifeStep system restart) state events = some state') :
    Kept contract state' ∧ contract.Moves state.shared state'.shared := by
  refine invariant_of_along (I := fun reached : State σ ε Answer =>
    Kept contract reached ∧ contract.Moves state.shared reached.shared)
    (fun reached event next hreached hpermitted hstep => ?_)
    ⟨h, contract.moves_refl _⟩ hpermitted hrun
  cases event with
  | restart =>
      obtain rfl := Option.some.inj hstep
      obtain ⟨hinv, hmoves, hidle⟩ := hrestart reached.shared hreached.1.inv
      exact ⟨kept_initial hinv hidle, contract.moves_trans hreached.2 hmoves⟩
  | goesOn event =>
      have hallowed : Permitted contract.Permits reached event := by
        cases event with
        | start job => trivial
        | outside event => trivial
        | resume id answers =>
            exact fun question hquestion => hpermits _ question _ (hpermitted question hquestion)
      obtain ⟨hkept, hmoves⟩ := hreached.1.step hkeeps hallowed hstep
      exact ⟨hkept, contract.moves_trans hreached.2 hmoves⟩

end Async
