import RifRelayServer.Lib.Async
import RifRelayServer.Lib.Keeping
import RifRelayServer.Lib.Occurrences
import Mathlib

/-!
# Programs that run alone

How a program ends that no other program disturbs: at a question, changes from
outside may come before the answer. A program that fetches its answers itself is
matched when, from related states, the waiting program can end the same way in a
related state.
-/

namespace Async

open Runs

variable {σ ε κ τ η : Type} {Answer : κ → Type} {α β : Type}

/-- From the state the program can end with the outcome in the other state. -/
inductive Ends (system : System σ ε Answer τ η) {α : Type} :
    Program σ ε Answer α → σ → Except ε α → σ → Prop
  | done (a : α) (s : σ) : Ends system (.done a) s (.ok a) s
  | fail (e : ε) (s : σ) : Ends system (.fail e) s (.error e) s
  | read {next : σ → Program σ ε Answer α} {s t : σ} {outcome : Except ε α}
      (h : Ends system (next s) s outcome t) : Ends system (.read next) s outcome t
  | write {next : Program σ ε Answer α} {s u t : σ} {outcome : Except ε α}
      (h : Ends system next u outcome t) : Ends system (.write u next) s outcome t
  | await {question : κ} {next : Answer question → Program σ ε Answer α} {s u t : σ}
      {outcome : Except ε α} {events : List η} (answer : Answer question)
      (houtside : run system.outside s events = some u)
      (henabled : system.enabled u question = true)
      (h : Ends system (next answer) u outcome t) : Ends system (.await question next) s outcome t

theorem Program.bind_assoc {γ : Type} (program : Program σ ε Answer α)
    (f : α → Program σ ε Answer β) (g : β → Program σ ε Answer γ) :
    program >>= f >>= g = program >>= fun a => f a >>= g := by
  change (program.bind f).bind g = program.bind fun a => (f a).bind g
  induction program with
  | done a => rfl
  | fail e => rfl
  | read next ih => exact congrArg Program.read (funext ih)
  | write s next ih => exact congrArg (Program.write s) ih
  | await question next ih => exact congrArg (Program.await question) (funext ih)

variable {system : System σ ε Answer τ η} {s t u : σ} {outcome : Except ε β}

namespace Ends

theorem bind {program : Program σ ε Answer α} {next : α → Program σ ε Answer β} {a : α}
    (h : Ends system program s (.ok a) t) (hnext : Ends system (next a) t outcome u) :
    Ends system (program >>= next) s outcome u := by
  change Ends system (program.bind next) s outcome u
  generalize hfirst : (Except.ok a : Except ε α) = first at h
  induction h with
  | done b s =>
      obtain rfl := Except.ok.inj hfirst
      exact hnext
  | fail e s => cases hfirst
  | read _ ih => exact .read (ih hnext hfirst)
  | write _ ih => exact .write (ih hnext hfirst)
  | await answer houtside henabled _ ih => exact .await answer houtside henabled (ih hnext hfirst)

theorem bind_error {program : Program σ ε Answer α} {next : α → Program σ ε Answer β} {e : ε}
    (h : Ends system program s (.error e) t) :
    Ends system (program >>= next) s (.error e) t := by
  change Ends system (program.bind next) s (.error e) t
  generalize hfirst : (Except.error e : Except ε α) = first at h
  induction h with
  | done b s => cases hfirst
  | fail e' s =>
      obtain rfl := Except.error.inj hfirst
      exact .fail e s
  | read _ ih => exact .read (ih hfirst)
  | write _ ih => exact .write (ih hfirst)
  | await answer houtside henabled _ ih => exact .await answer houtside henabled (ih hfirst)

theorem attempt {program : Program σ ε Answer β} (h : Ends system program s outcome t) :
    Ends system program.attempt s (.ok outcome) t := by
  induction h with
  | done a s => exact .done _ s
  | fail e s => exact .done _ s
  | read _ ih => exact .read ih
  | write _ ih => exact .write ih
  | await answer houtside henabled _ ih => exact .await answer houtside henabled ih

theorem get : Ends system (MonadState.get : Program σ ε Answer σ) s (.ok s) s := .read (.done s s)

theorem modify (f : σ → σ) :
    Ends system (modify f : Program σ ε Answer PUnit) s (.ok ()) (f s) :=
  .read (.write (.done _ _))

theorem ask {question : κ} {events : List η} (answer : Answer question)
    (houtside : run system.outside s events = some u)
    (henabled : system.enabled u question = true) :
    Ends system (Program.ask question) s (.ok answer) u :=
  .await answer houtside henabled (.done answer u)

/-- The answer comes before anything else changes. -/
theorem answered {question : κ} (answer : Answer question)
    (henabled : system.enabled s question = true) :
    Ends system (Program.ask question) s (.ok answer) s := by
  have houtside : run system.outside s ([] : List η) = some s := rfl
  exact ask answer houtside henabled

end Ends

def Program.ended : Except ε α → Program σ ε Answer α
  | .ok a => .done a
  | .error e => .fail e

section Run

variable {outcome : Except ε Unit}

theorem run_outside {events : List η} (houtside : run system.outside s events = some u)
    (programs : List (Program σ ε Answer Unit)) :
    run (step system) ⟨s, programs⟩ (events.map .outside) = some ⟨u, programs⟩ := by
  induction events generalizing s with
  | nil =>
      obtain rfl := Option.some.inj houtside
      rfl
  | cons event events ih =>
      obtain ⟨v, hv, hrest⟩ := run_cons_eq_some_iff.mp houtside
      refine run_cons_eq_some_iff.mpr ⟨⟨v, programs⟩, ?_, ih hrest⟩
      simp only [step, hv, Option.map_some]

variable {allows : η → Bool} {state state' : State σ ε Answer}

theorem step_of_restrict {event : Event τ Answer η}
    (h : step (system.restrict allows) state event = some state') :
    step system state event = some state' ∧
      ∀ change, event = .outside change → allows change = true := by
  cases event with
  | start job => exact ⟨h, nofun⟩
  | resume id answers => exact ⟨h, nofun⟩
  | outside change =>
      simp only [step, System.restrict] at h ⊢
      split at h
      next hallowed => exact ⟨h, fun _ heq => Event.outside.inj heq ▸ hallowed⟩
      next => cases h

/-- A run of the restricted system is a run with only the changes that are allowed. -/
theorem run_of_restrict {events : List (Event τ Answer η)}
    (h : run (step (system.restrict allows)) state events = some state') :
    run (step system) state events = some state' ∧
      ∀ change, .outside change ∈ events → allows change = true := by
  induction events generalizing state with
  | nil => exact ⟨h, by simp⟩
  | cons event events ih =>
      obtain ⟨next, hstep, hrest⟩ := run_cons_eq_some_iff.mp h
      obtain ⟨hstep', hallowed⟩ := step_of_restrict hstep
      obtain ⟨hrest', hothers⟩ := ih hrest
      refine ⟨run_cons_eq_some_iff.mpr ⟨next, hstep', hrest'⟩, fun change hchange => ?_⟩
      rcases List.mem_cons.mp hchange with heq | hother
      · exact hallowed change heq.symm
      · exact hothers change hother

/-- The last program is answered. -/
theorem step_resume_last {question : κ} {next : Answer question → Program σ ε Answer Unit}
    {programs : List (Program σ ε Answer Unit)} (henabled : system.enabled s question = true)
    (answers : ∀ question, Answer question) :
    step system ⟨s, programs ++ [.await question next]⟩ (.resume programs.length answers) =
      some ⟨((next (answers question)).advance s).1,
        programs ++ [((next (answers question)).advance s).2]⟩ := by
  have hlast : (programs ++ [.await question next])[programs.length]? =
      some (.await question next) := List.getElem?_concat_length
  simp only [step, hlast, henabled, if_true]
  simp

/-- The program with the number goes on, or a change comes from outside. -/
def TurnOf (id : ℕ) : Event τ Answer η → Prop
  | .start _ => False
  | .resume other _ => other = id
  | .outside _ => True

variable [DecidableEq κ] [∀ question, Inhabited (Answer question)]
  {program : Program σ ε Answer Unit}

/-- A program that can end alone does so in a run in which only it and the changes from outside
take turns. -/
theorem Ends.run (h : Ends system program s outcome t) (programs : List (Program σ ε Answer Unit))
    {id : ℕ} (hid : id < programs.length) :
    ∃ events : List (Event τ Answer η), (∀ event ∈ events, TurnOf id event) ∧
      Runs.run (step system)
        ⟨(program.advance s).1, programs.set id (program.advance s).2⟩ events =
          some ⟨t, programs.set id (.ended outcome)⟩ := by
  induction h with
  | done a s => exact ⟨[], by simp, rfl⟩
  | fail e s => exact ⟨[], by simp, rfl⟩
  | read _ ih => exact ih
  | write _ ih => exact ih
  | @await question next s u t outcome outside answer houtside henabled _ ih =>
      obtain ⟨events, hturns, hevents⟩ := ih
      let answers : ∀ question, Answer question := Function.update (fun _ => default) question answer
      have houtsides : ∀ change ∈ outside, TurnOf id (Event.outside change : Event τ Answer η) :=
        fun _ _ => trivial
      have hresumed : ∀ event ∈ Event.resume id answers :: events, TurnOf id event :=
        List.forall_mem_cons.mpr ⟨rfl, hturns⟩
      refine ⟨outside.map .outside ++ .resume id answers :: events,
        List.forall_mem_append.mpr ⟨List.forall_mem_map.mpr houtsides, hresumed⟩,
        run_append_eq_some_iff.mpr ⟨⟨u, programs.set id (.await question next)⟩, ?_,
          run_cons_eq_some_iff.mpr ⟨_, ?_, hevents⟩⟩⟩
      · exact run_outside houtside _
      · have hanswer : answers question = answer := Function.update_self _ _ _
        simp only [step, List.getElem?_set_self hid, henabled, if_true, hanswer, List.set_set]

end Run

/-- From the two states the program that waits can end as the other one does: in a state
related to the one it leaves, and with a result that suits. -/
def Matches (system : System σ ε Answer τ η) {ω : Type} (R : ω → σ → Prop)
    (S : α → ω → β → Prop) (concrete : EStateM ε ω α) (w : ω) (program : Program σ ε Answer β)
    (s : σ) : Prop :=
  match concrete w with
  | .ok a w' => ∃ b t, Ends system program s (.ok b) t ∧ R w' t ∧ S a w' b
  | .error e w' => ∃ t, Ends system program s (.error e) t ∧ R w' t

namespace Matches

variable {ω : Type} {R : ω → σ → Prop} {γ δ : Type} {S : α → ω → β → Prop}
  {S' : γ → ω → δ → Prop} {concrete : EStateM ε ω α} {w w' : ω} {program : Program σ ε Answer β}
  {a : α} {b : β} {e : ε}

theorem of_ok (h : concrete w = .ok a w') (hends : Ends system program s (.ok b) t)
    (hR : R w' t) (hS : S a w' b) : Matches system R S concrete w program s := by
  rw [Matches, h]
  exact ⟨b, t, hends, hR, hS⟩

theorem of_error (h : concrete w = .error e w') (hends : Ends system program s (.error e) t)
    (hR : R w' t) : Matches system R S concrete w program s := by
  rw [Matches, h]
  exact ⟨t, hends, hR⟩

theorem pure (hR : R w s) (hS : S a w b) :
    Matches system R S (Pure.pure a) w (Pure.pure b) s := of_ok rfl (.done b s) hR hS

theorem throw (hR : R w s) : Matches system R S (throw e) w (.fail e) s :=
  of_error rfl (.fail e s) hR

theorem imp {R' : ω → σ → Prop} {S' : α → ω → β → Prop}
    (h : Matches system R S concrete w program s) (hR : ∀ w' t, R w' t → R' w' t)
    (hS : ∀ a w' b, S a w' b → S' a w' b) : Matches system R' S' concrete w program s := by
  unfold Matches at h ⊢
  cases hrun : concrete w with
  | ok a w' =>
      rw [hrun] at h
      obtain ⟨b, t, hends, hrelated, hmatch⟩ := h
      exact ⟨b, t, hends, hR w' t hrelated, hS a w' b hmatch⟩
  | error e w' =>
      rw [hrun] at h
      obtain ⟨t, hends, hrelated⟩ := h
      exact ⟨t, hends, hR w' t hrelated⟩

theorem bind {f : α → EStateM ε ω γ} {g : β → Program σ ε Answer δ}
    (h : Matches system R S concrete w program s)
    (hnext : ∀ a w' b t, R w' t → S a w' b → Matches system R S' (f a) w' (g b) t) :
    Matches system R S' (concrete >>= f) w (program >>= g) s := by
  unfold Matches at h
  cases hrun : concrete w with
  | ok a w' =>
      rw [hrun] at h
      obtain ⟨b, t, hends, hR, hS⟩ := h
      have hrest := hnext a w' b t hR hS
      unfold Matches at hrest ⊢
      rw [Keeping.bind_of_ok hrun]
      cases hlast : f a w' with
      | ok c w'' =>
          rw [hlast] at hrest
          obtain ⟨d, u, hends', hrest⟩ := hrest
          exact ⟨d, u, hends.bind hends', hrest⟩
      | error e w'' =>
          rw [hlast] at hrest
          obtain ⟨u, hends', hrest⟩ := hrest
          exact ⟨u, hends.bind hends', hrest⟩
  | error e w' =>
      rw [hrun] at h
      obtain ⟨t, hends, hR⟩ := h
      exact of_error (Keeping.bind_of_error hrun) hends.bind_error hR

/-- The concrete program goes first. -/
theorem left_ok {f : α → EStateM ε ω γ} {program : Program σ ε Answer δ}
    (hrun : concrete w = .ok a w') (h : Matches system R S' (f a) w' program s) :
    Matches system R S' (concrete >>= f) w program s := by
  unfold Matches at h ⊢
  rwa [Keeping.bind_of_ok hrun]

/-- The concrete program goes on alone where it no longer fails. -/
theorem left_after {S' : γ → ω → β → Prop} {f : α → EStateM ε ω γ}
    (h : Matches system R S concrete w program s)
    (hafter : ∀ a w' b t, R w' t → S a w' b → ∃ c w'', f a w' = .ok c w'' ∧ R w'' t ∧ S' c w'' b) :
    Matches system R S' (concrete >>= f) w program s := by
  unfold Matches at h
  cases hrun : concrete w with
  | ok a w' =>
      rw [hrun] at h
      obtain ⟨b, t, hends, hR, hmatch⟩ := h
      obtain ⟨c, w'', hlast, hR', hmatch'⟩ := hafter a w' b t hR hmatch
      exact of_ok ((Keeping.bind_of_ok hrun).trans hlast) hends hR' hmatch'
  | error e w' =>
      rw [hrun] at h
      obtain ⟨t, hends, hR⟩ := h
      exact of_error (Keeping.bind_of_error hrun) hends hR

theorem left_pure {S' : γ → ω → β → Prop} {f : α → γ} (h : Matches system R S concrete w program s)
    (hS : ∀ a w' b, S a w' b → S' (f a) w' b) :
    Matches system R S' (concrete >>= fun a => Pure.pure (f a)) w program s :=
  h.left_after fun a w' b _ hR hmatch => ⟨f a, w', rfl, hR, hS a w' b hmatch⟩

theorem right_pure {S' : α → ω → δ → Prop} {g : β → δ}
    (h : Matches system R S concrete w program s) (hS : ∀ a w' b, S a w' b → S' a w' (g b)) :
    Matches system R S' concrete w (program >>= fun b => Pure.pure (g b)) s := by
  unfold Matches at h ⊢
  cases hrun : concrete w with
  | ok a w' =>
      rw [hrun] at h
      obtain ⟨b, t, hends, hR, hmatch⟩ := h
      exact ⟨g b, t, hends.bind (.done _ t), hR, hS a w' b hmatch⟩
  | error e w' =>
      rw [hrun] at h
      obtain ⟨t, hends, hR⟩ := h
      exact ⟨t, hends.bind_error, hR⟩

/-- The program that waits goes first. -/
theorem right {g : β → Program σ ε Answer δ} {concrete : EStateM ε ω γ}
    (hends : Ends system program s (.ok b) t) (h : Matches system R S' concrete w (g b) t) :
    Matches system R S' concrete w (program >>= g) s := by
  unfold Matches at h ⊢
  cases hrun : concrete w with
  | ok c w' =>
      rw [hrun] at h
      obtain ⟨d, u, hends', hrest⟩ := h
      exact ⟨d, u, hends.bind hends', hrest⟩
  | error e w' =>
      rw [hrun] at h
      obtain ⟨u, hends', hrest⟩ := h
      exact ⟨u, hends.bind hends', hrest⟩

theorem left_get {f : ω → EStateM ε ω γ} {program : Program σ ε Answer δ}
    (h : Matches system R S' (f w) w program s) :
    Matches system R S' (MonadState.get >>= f) w program s := h

theorem left_modify {update : ω → ω} {f : PUnit → EStateM ε ω γ} {program : Program σ ε Answer δ}
    (h : Matches system R S' (f ()) (update w) program s) :
    Matches system R S' (modify update >>= f) w program s := h

theorem right_get {g : σ → Program σ ε Answer δ} {concrete : EStateM ε ω γ}
    (h : Matches system R S' concrete w (g s) s) :
    Matches system R S' concrete w (MonadState.get >>= g) s := right .get h

theorem right_modify {update : σ → σ} {g : PUnit → Program σ ε Answer δ}
    {concrete : EStateM ε ω γ} (h : Matches system R S' concrete w (g ()) (update s)) :
    Matches system R S' concrete w (modify update >>= g) s := right (.modify update) h

/-- A program on a part of the state is matched on the part. -/
theorem focus {ρ : Type} {part : ω → ρ} {update : ρ → ω → ω} {concrete : EStateM ε ρ α}
    (h : Matches system (fun r => R (update r w)) (fun a r => S a (update r w)) concrete (part w)
      program s) : Matches system R S (Keeping.focus part update concrete) w program s := by
  unfold Matches at h ⊢
  unfold Keeping.focus
  cases hrun : concrete (part w) with
  | ok a r =>
      rw [hrun] at h
      exact h
  | error e r =>
      rw [hrun] at h
      exact h

theorem ends_of_ok (h : Matches system R S concrete w program s) (hrun : concrete w = .ok a w') :
    ∃ b t, Ends system program s (.ok b) t ∧ R w' t ∧ S a w' b := by
  rwa [Matches, hrun] at h

theorem ends_of_error (h : Matches system R S concrete w program s)
    (hrun : concrete w = .error e w') : ∃ t, Ends system program s (.error e) t ∧ R w' t := by
  rwa [Matches, hrun] at h

end Matches

section Machines

variable {ω μ ν ι γ : Type} {resume : μ → ι → Option μ} {Q : Except ε Unit → ω → μ → Prop}
  {concrete : EStateM ε ω α} {f : α → EStateM ε ω γ} {w w' : ω} {m m' : μ} {a : α} {e : ε}

/-- A machine that is answered step by step can come to an end as the program does. -/
def Follows (resume : μ → ι → Option μ) (Q : Except ε Unit → ω → μ → Prop)
    (concrete : EStateM ε ω α) (w : ω) (m : μ) : Prop :=
  match concrete w with
  | .ok _ w' => ∃ answers t, run resume m answers = some t ∧ Q (.ok ()) w' t
  | .error e w' => ∃ answers t, run resume m answers = some t ∧ Q (.error e) w' t

namespace Follows

theorem of_ok (h : concrete w = .ok a w') (hQ : Q (.ok ()) w' m) :
    Follows resume Q concrete w m := by
  rw [Follows, h]
  exact ⟨[], m, rfl, hQ⟩

theorem of_error (h : concrete w = .error e w') (hQ : Q (.error e) w' m) :
    Follows resume Q concrete w m := by
  rw [Follows, h]
  exact ⟨[], m, rfl, hQ⟩

theorem failed (h : concrete w = .error e w') (hQ : Q (.error e) w' m) :
    Follows resume Q (concrete >>= f) w m := of_error (Keeping.bind_of_error h) hQ

theorem left_ok (hrun : concrete w = .ok a w') (h : Follows resume Q (f a) w' m) :
    Follows resume Q (concrete >>= f) w m := by
  unfold Follows at h ⊢
  rwa [Keeping.bind_of_ok hrun]

theorem step (answer : ι) (hresume : resume m answer = some m')
    (h : Follows resume Q concrete w m') : Follows resume Q concrete w m := by
  unfold Follows at h ⊢
  cases hrun : concrete w with
  | ok a w' =>
      rw [hrun] at h
      obtain ⟨answers, t, ht, hQ⟩ := h
      exact ⟨answer :: answers, t, run_cons_eq_some_iff.mpr ⟨m', hresume, ht⟩, hQ⟩
  | error e w' =>
      rw [hrun] at h
      obtain ⟨answers, t, ht, hQ⟩ := h
      exact ⟨answer :: answers, t, run_cons_eq_some_iff.mpr ⟨m', hresume, ht⟩, hQ⟩

theorem left_pure {g : α → γ} (h : Follows resume Q concrete w m) :
    Follows resume Q (concrete >>= fun a => Pure.pure (g a)) w m := by
  unfold Follows at h ⊢
  cases hrun : concrete w with
  | ok a w' =>
      rw [hrun] at h
      rw [Keeping.bind_of_ok hrun]
      exact h
  | error e w' =>
      rw [hrun] at h
      rw [Keeping.bind_of_error hrun]
      exact h

theorem focus {ρ : Type} {part : ω → ρ} {update : ρ → ω → ω} {concrete : EStateM ε ρ α}
    (h : Follows resume (fun outcome r => Q outcome (update r w)) concrete (part w) m) :
    Follows resume Q (Keeping.focus part update concrete) w m := by
  unfold Follows at h ⊢
  unfold Keeping.focus
  cases hrun : concrete (part w) with
  | ok a r =>
      rw [hrun] at h
      exact h
  | error e r =>
      rw [hrun] at h
      exact h

/-- A machine within another one. -/
theorem within {resume' : ν → ι → Option ν} {g : μ → ν} {n : ν}
    {Q' : Except ε Unit → ω → ν → Prop}
    (hresume : ∀ m answer, resume' (g m) answer = (resume m answer).map g)
    (hQ : ∀ outcome w m, Q outcome w m → Q' outcome w (g m)) (hn : g m = n)
    (h : Follows resume Q concrete w m) : Follows resume' Q' concrete w n := by
  subst hn
  have hrun : ∀ {m answers t}, run resume m answers = some t →
      run resume' (g m) answers = some (g t) := by
    intro m answers t h
    induction answers generalizing m with
    | nil => rw [← Option.some.inj h, run_nil]
    | cons answer answers ih =>
        obtain ⟨u, hu, hrest⟩ := run_cons_eq_some_iff.mp h
        exact run_cons_eq_some_iff.mpr ⟨g u, by rw [hresume, hu, Option.map_some], ih hrest⟩
  unfold Follows at h ⊢
  cases hconcrete : concrete w with
  | ok a w' =>
      rw [hconcrete] at h
      obtain ⟨answers, t, ht, hend⟩ := h
      exact ⟨answers, g t, hrun ht, hQ _ w' t hend⟩
  | error e w' =>
      rw [hconcrete] at h
      obtain ⟨answers, t, ht, hend⟩ := h
      exact ⟨answers, g t, hrun ht, hQ _ w' t hend⟩

end Follows

end Machines

end Async
