import RifRelayServer.Lib.Runs
import Mathlib.Data.List.Basic
import Mathlib.Data.Nat.Basic

/-!
# Programs that take turns

Many programs work on one state. A program runs alone up to its next question
and goes on once that is answered; in between the others run. A contract says
what holds of the state whenever a program waits, and what each program can rely
on while it does. Programs that keep the contract keep its invariant in every run.
-/

namespace Async

/-- A program reads and writes the state, waits for answers, and returns or fails. -/
inductive Program (σ ε : Type) {κ : Type} (Answer : κ → Type) (α : Type) : Type
  | done (a : α)
  | fail (error : ε)
  | read (next : σ → Program σ ε Answer α)
  | write (s : σ) (next : Program σ ε Answer α)
  | await (question : κ) (next : Answer question → Program σ ε Answer α)

variable {σ ε κ : Type} {Answer : κ → Type} {α β : Type}

namespace Program

def bind : Program σ ε Answer α → (α → Program σ ε Answer β) → Program σ ε Answer β
  | done a, f => f a
  | fail e, _ => fail e
  | read next, f => read fun s => (next s).bind f
  | write s next, f => write s (next.bind f)
  | await question next, f => await question fun answer => (next answer).bind f

instance : Monad (Program σ ε Answer) where
  pure := done
  bind := bind

instance : MonadStateOf σ (Program σ ε Answer) where
  get := read done
  set s := write s (done ())
  modifyGet f := read fun s => write (f s).2 (done (f s).1)

def ask (question : κ) : Program σ ε Answer (Answer question) := await question done

/-- The outcome of the program, which may be a failure. -/
def attempt : Program σ ε Answer α → Program σ ε Answer (Except ε α)
  | done a => done (.ok a)
  | fail e => done (.error e)
  | read next => read fun s => (next s).attempt
  | write s next => write s next.attempt
  | await question next => await question fun answer => (next answer).attempt

/-- To the next question, or to the end. -/
def advance : Program σ ε Answer α → σ → σ × Program σ ε Answer α
  | read next, s => (next s).advance s
  | write s next, _ => next.advance s
  | program, s => (s, program)

def question? : Program σ ε Answer α → Option κ
  | await question _ => some question
  | _ => none

section Spares

variable {ρ : Type} (part : σ → ρ)

/-- From the state on, no turn of the program changes the part. -/
def SparesFrom : Program σ ε Answer α → σ → Prop
  | done _, _ => True
  | fail _, _ => True
  | read next, s => SparesFrom (next s) s
  | write t next, s => part t = part s ∧ SparesFrom next t
  | await _ next, _ => ∀ t answer, SparesFrom (next answer) t

def Spares (program : Program σ ε Answer α) : Prop := ∀ s, program.SparesFrom part s

variable {part}

theorem spares_pure (a : α) : (pure a : Program σ ε Answer α).Spares part := fun _ => trivial

theorem spares_fail (e : ε) : (fail e : Program σ ε Answer α).Spares part := fun _ => trivial

theorem spares_get : (get : Program σ ε Answer σ).Spares part := fun _ => trivial

theorem spares_modify {f : σ → σ} (h : ∀ s, part (f s) = part s) :
    (modify f : Program σ ε Answer PUnit).Spares part := fun s => ⟨h s, trivial⟩

theorem spares_ask (question : κ) : (ask question : Program σ ε Answer _).Spares part :=
  fun _ _ _ => trivial

theorem Spares.comp {ρ' : Type} {program : Program σ ε Answer α} (f : ρ → ρ')
    (h : program.Spares part) : program.Spares fun s => f (part s) := by
  intro s
  have hfrom := h s
  clear h
  induction program generalizing s with
  | done a => trivial
  | fail e => trivial
  | read next ih => exact ih s s hfrom
  | write t next ih => exact ⟨congrArg f hfrom.1, ih t hfrom.2⟩
  | await question next ih => exact fun t answer => ih answer t (hfrom t answer)

theorem Spares.bind {program : Program σ ε Answer α} {f : α → Program σ ε Answer β}
    (h : program.Spares part) (hf : ∀ a, (f a).Spares part) : (program >>= f).Spares part := by
  intro s
  have hfrom := h s
  clear h
  change (program.bind f).SparesFrom part s
  induction program generalizing s with
  | done a => exact hf a s
  | fail e => trivial
  | read next ih => exact ih s s hfrom
  | write t next ih => exact ⟨hfrom.1, ih t hfrom.2⟩
  | await question next ih => exact fun t answer => ih answer t (hfrom t answer)

end Spares

end Program

/-- The programs that can be started, each told its number; the changes that come
from outside; and the questions that can be answered. -/
structure System (σ ε : Type) {κ : Type} (Answer : κ → Type) (τ η : Type) where
  program : τ → ℕ → Program σ ε Answer Unit
  outside : σ → η → Option σ
  enabled : σ → κ → Bool

/-- The system to which only some of the changes come from outside. -/
def System.restrict {σ ε κ τ η : Type} {Answer : κ → Type} (system : System σ ε Answer τ η)
    (allows : η → Bool) : System σ ε Answer τ η :=
  { system with outside := fun s event => if allows event then system.outside s event else none }

structure State (σ ε : Type) {κ : Type} (Answer : κ → Type) where
  shared : σ
  programs : List (Program σ ε Answer Unit)

inductive Event (τ : Type) {κ : Type} (Answer : κ → Type) (η : Type)
  | start (job : τ)
  | resume (id : ℕ) (answers : ∀ question, Answer question)
  | outside (event : η)

variable {τ η : Type}

def step (system : System σ ε Answer τ η) (state : State σ ε Answer) :
    Event τ Answer η → Option (State σ ε Answer)
  | .start job =>
      let (shared, program) := (system.program job state.programs.length).advance state.shared
      some { shared, programs := state.programs ++ [program] }
  | .resume id answers =>
      match state.programs[id]? with
      | some (.await question next) =>
          if system.enabled state.shared question then
            let (shared, program) := (next (answers question)).advance state.shared
            some { shared, programs := state.programs.set id program }
          else none
      | _ => none
  | .outside event => (system.outside state.shared event).map fun shared => { state with shared }

/-- A program that goes on gets an answer that is permitted. -/
def Permitted (permits : σ → (question : κ) → Answer question → Prop)
    (state : State σ ε Answer) : Event τ Answer η → Prop
  | .resume id answers => ∀ question ∈ state.programs[id]?.bind Program.question?,
      permits state.shared question (answers question)
  | _ => True

instance {permits : σ → (question : κ) → Answer question → Prop}
    [∀ s question answer, Decidable (permits s question answer)] (state : State σ ε Answer)
    (event : Event τ Answer η) : Decidable (Permitted permits state event) :=
  match event with
  | .resume id answers => inferInstanceAs (Decidable (∀ question ∈
      state.programs[id]?.bind Program.question?, permits state.shared question (answers question)))
  | .start _ | .outside _ => isTrue trivial

structure Contract (system : System σ ε Answer τ η) where
  /-- What holds of the state. -/
  Inv : σ → Prop
  /-- How the state moves, whoever writes it. -/
  Moves : σ → σ → Prop
  /-- What the others leave alone of what concerns the program with the number. -/
  Leaves : ℕ → σ → σ → Prop
  /-- What holds before the program with the number starts and once it has ended. -/
  Idle : ℕ → σ → Prop
  moves_refl : ∀ s, Moves s s
  moves_trans : ∀ {s t u}, Moves s t → Moves t u → Moves s u
  leaves_refl : ∀ id s, Leaves id s s
  leaves_trans : ∀ {id s t u}, Leaves id s t → Leaves id t u → Leaves id s u
  idle_leaves : ∀ {id s t}, Leaves id s t → Idle id s → Idle id t
  /-- The answers that are given. -/
  Permits : σ → (question : κ) → Answer question → Prop

namespace Contract

variable {system : System σ ε Answer τ η} (contract : Contract system)

/-- The program with the number may take the state from one to the other. -/
structure Allows (id : ℕ) (s t : σ) : Prop where
  inv : contract.Inv t
  moves : contract.Moves s t
  leaves : ∀ other, other ≠ id → contract.Leaves other s t

/-- From the state on the program keeps the contract, and ends as the conditions say. -/
def Sat (id : ℕ) (Q : α → σ → Prop) (E : ε → σ → Prop) : Program σ ε Answer α → σ → Prop
  | .done a, s => Q a s
  | .fail e, s => E e s
  | .read next, s => Sat id Q E (next s) s
  | .write t next, s => contract.Allows id s t ∧ Sat id Q E next t
  | .await question next, s => ∀ t, contract.Inv t → contract.Leaves id s t →
      system.enabled t question = true → ∀ answer, contract.Permits t question answer →
        Sat id Q E (next answer) t

/-- What the program with the number still knows when it goes on. -/
def Stable (id : ℕ) (J : σ → Prop) : Prop :=
  ∀ ⦃s t⦄, contract.Inv t → contract.Leaves id s t → J s → J t

variable {contract} {id : ℕ} {Q Q' : α → σ → Prop} {E E' : ε → σ → Prop} {s t : σ}
  {program : Program σ ε Answer α}

@[simp] theorem sat_pure {a : α} : contract.Sat id Q E (pure a) s ↔ Q a s := Iff.rfl

@[simp] theorem sat_fail {e : ε} :
    contract.Sat id Q E (.fail e : Program σ ε Answer α) s ↔ E e s := Iff.rfl

@[simp] theorem sat_get {Q : σ → σ → Prop} :
    contract.Sat id Q E (get : Program σ ε Answer σ) s ↔ Q s s := Iff.rfl

@[simp] theorem sat_modify {f : σ → σ} {Q : PUnit → σ → Prop} :
    contract.Sat id Q E (modify f : Program σ ε Answer PUnit) s ↔
      contract.Allows id s (f s) ∧ Q () (f s) := Iff.rfl

@[simp] theorem sat_ask {question : κ} {Q : Answer question → σ → Prop} :
    contract.Sat id Q E (Program.ask question) s ↔
      ∀ t, contract.Inv t → contract.Leaves id s t → system.enabled t question = true →
        ∀ answer, contract.Permits t question answer → Q answer t := Iff.rfl

@[simp] theorem sat_bind {f : α → Program σ ε Answer β} {Q : β → σ → Prop} :
    contract.Sat id Q E (program >>= f) s ↔
      contract.Sat id (fun a t => contract.Sat id Q E (f a) t) E program s := by
  change contract.Sat id Q E (program.bind f) s ↔ _
  induction program generalizing s with
  | done a => rfl
  | fail e => rfl
  | read next ih => exact ih s
  | write t next ih => exact and_congr_right fun _ => ih
  | await question next ih =>
      exact forall₅_congr fun t _ _ _ answer => imp_congr_right fun _ => ih answer

@[simp] theorem sat_attempt {Q : Except ε α → σ → Prop} :
    contract.Sat id Q E program.attempt s ↔
      contract.Sat id (fun a t => Q (.ok a) t) (fun e t => Q (.error e) t) program s := by
  induction program generalizing s with
  | done a => rfl
  | fail e => rfl
  | read next ih => exact ih s
  | write t next ih => exact and_congr_right fun _ => ih
  | await question next ih =>
      exact forall₅_congr fun t _ _ _ answer => imp_congr_right fun _ => ih answer

/-- The conditions at the end may be weakened, and may use the invariant. -/
theorem Sat.mono (h : contract.Sat id Q E program s) (hs : contract.Inv s)
    (hQ : ∀ a t, contract.Inv t → Q a t → Q' a t) (hE : ∀ e t, contract.Inv t → E e t → E' e t) :
    contract.Sat id Q' E' program s := by
  induction program generalizing s with
  | done a => exact hQ a s hs h
  | fail e => exact hE e s hs h
  | read next ih => exact ih s h hs
  | write t next ih => exact ⟨h.1, ih h.2 h.1.inv⟩
  | await question next ih =>
      exact fun t hinv hleaves henabled answer hpermits =>
        ih answer (h t hinv hleaves henabled answer hpermits) hinv

theorem Sat.bind {P : α → σ → Prop} {f : α → Program σ ε Answer β} {Q : β → σ → Prop}
    (h : contract.Sat id P E program s) (hs : contract.Inv s)
    (hf : ∀ a t, contract.Inv t → P a t → contract.Sat id Q E (f a) t) :
    contract.Sat id Q E (program >>= f) s :=
  sat_bind.mpr (h.mono hs hf fun _ _ _ he => he)

theorem Sat.ask {J : σ → Prop} {question : κ} (hJ : contract.Stable id J) (hs : J s) :
    contract.Sat id (fun _ t => J t) E (Program.ask question) s :=
  fun _ hinv hleaves _ _ _ => hJ hinv hleaves hs

/-- A program that waits may wait on while the others run. -/
theorem Sat.wait {question : κ} {next : Answer question → Program σ ε Answer α}
    (h : contract.Sat id Q E (.await question next) s) (hleaves : contract.Leaves id s t) :
    contract.Sat id Q E (.await question next) t :=
  fun u hinv hrest => h u hinv (contract.leaves_trans hleaves hrest)

theorem allows_refl (hs : contract.Inv s) : contract.Allows id s s :=
  ⟨hs, contract.moves_refl s, fun other _ => contract.leaves_refl other s⟩

theorem Allows.trans {u : σ} (h : contract.Allows id s t) (h' : contract.Allows id t u) :
    contract.Allows id s u :=
  ⟨h'.inv, contract.moves_trans h.moves h'.moves,
    fun other hne => contract.leaves_trans (h.leaves other hne) (h'.leaves other hne)⟩

variable (contract) in
/-- A program between two of its turns: it waits and keeps the contract, or has ended. -/
def Rests (id : ℕ) (s : σ) : Program σ ε Answer Unit → Prop
  | .done _ | .fail _ => contract.Idle id s
  | .await question next => contract.Sat id (fun _ => contract.Idle id)
      (fun _ => contract.Idle id) (.await question next) s
  | _ => False

theorem Rests.leaves {program : Program σ ε Answer Unit} (h : contract.Rests id s program)
    (hleaves : contract.Leaves id s t) : contract.Rests id t program := by
  cases program with
  | done a => exact contract.idle_leaves hleaves h
  | fail e => exact contract.idle_leaves hleaves h
  | await question next => exact Sat.wait h hleaves
  | read next => exact h
  | write u next => exact h

/-- What a turn of a program does: all it writes is allowed, and it keeps the
contract from where it stops. -/
theorem Sat.advance {program : Program σ ε Answer Unit}
    (h : contract.Sat id (fun _ => contract.Idle id) (fun _ => contract.Idle id) program s)
    (hs : contract.Inv s) :
    contract.Allows id s (program.advance s).1 ∧
      contract.Rests id (program.advance s).1 (program.advance s).2 := by
  induction program generalizing s with
  | done a => exact ⟨allows_refl hs, h⟩
  | fail e => exact ⟨allows_refl hs, h⟩
  | read next ih => exact ih s h hs
  | write t next ih =>
      obtain ⟨hallows, hrests⟩ := ih h.2 h.1.inv
      exact ⟨h.1.trans hallows, hrests⟩
  | await question next ih => exact ⟨allows_refl hs, h⟩

variable (contract) in
/-- A change that spares the part concerns no one. -/
def DependsOn {ρ : Type} (part : σ → ρ) : Prop :=
  ∀ ⦃s t⦄, contract.Inv s → part t = part s →
    contract.Inv t ∧ contract.Moves s t ∧ ∀ id, contract.Leaves id s t

theorem DependsOn.allows {ρ : Type} {part : σ → ρ} (h : contract.DependsOn part)
    (hs : contract.Inv s) (hpart : part t = part s) : contract.Allows id s t :=
  have ⟨hinv, hmoves, hleaves⟩ := h hs hpart
  ⟨hinv, hmoves, fun other _ => hleaves other⟩

/-- A program that spares a part of the state keeps what depends on that part only. -/
theorem Sat.of_spares {ρ : Type} {part : σ → ρ} {J : σ → Prop} (hdependsOn : contract.DependsOn part)
    (hspares : program.Spares part) (hdepends : ∀ ⦃s t⦄, part t = part s → J s → J t)
    (hstable : contract.Stable id J) (hs : contract.Inv s) (hJ : J s) :
    contract.Sat id (fun _ t => J t) (fun _ t => J t) program s := by
  have hfrom := hspares s
  clear hspares
  induction program generalizing s with
  | done a => exact hJ
  | fail e => exact hJ
  | read next ih => exact ih s hs hJ hfrom
  | write t next ih =>
      have hallows : contract.Allows id s t := hdependsOn.allows hs hfrom.1
      exact ⟨hallows, ih hallows.inv (hdepends hfrom.1 hJ) hfrom.2⟩
  | await question next ih =>
      exact fun t hinv hleaves _ answer _ =>
        ih answer hinv (hstable hinv hleaves hJ) (hfrom t answer)

theorem Sat.spares_bind {ρ : Type} {part : σ → ρ} {J : σ → Prop}
    {f : α → Program σ ε Answer β} {Q : β → σ → Prop} (hdependsOn : contract.DependsOn part)
    (hspares : program.Spares part) (hdepends : ∀ ⦃s t⦄, part t = part s → J s → J t)
    (hstable : contract.Stable id J) (hs : contract.Inv s) (hJ : J s)
    (hE : ∀ e t, contract.Inv t → J t → E e t)
    (hf : ∀ a t, contract.Inv t → J t → contract.Sat id Q E (f a) t) :
    contract.Sat id Q E (program >>= f) s :=
  sat_bind.mpr ((Sat.of_spares hdependsOn hspares hdepends hstable hs hJ).mono hs hf hE)

end Contract

section Soundness

variable {system : System σ ε Answer τ η} {contract : Contract system}

/-- The invariant of runs: that of the contract, and each program keeps the contract. -/
structure Kept (contract : Contract system) (state : State σ ε Answer) : Prop where
  inv : contract.Inv state.shared
  rests : ∀ id program, state.programs[id]? = some program →
    contract.Rests id state.shared program
  fresh : ∀ id, state.programs.length ≤ id → contract.Idle id state.shared

/-- The programs of the system keep the contract, and so does what comes from outside. -/
structure Keeps (system : System σ ε Answer τ η) (contract : Contract system) : Prop where
  start : ∀ job id s, contract.Inv s → contract.Idle id s →
    contract.Sat id (fun _ => contract.Idle id) (fun _ => contract.Idle id)
      (system.program job id) s
  outside : ∀ s event t, contract.Inv s → system.outside s event = some t →
    contract.Inv t ∧ contract.Moves s t ∧ ∀ id, contract.Leaves id s t

/-- A program of a kept state that is not idle waits. -/
theorem Kept.waits {state : State σ ε Answer} (h : Kept contract state) {id : ℕ}
    (hbusy : ¬ contract.Idle id state.shared) :
    ∃ question next, state.programs[id]? = some (.await question next) := by
  have hlt : id < state.programs.length := by
    by_contra hge
    exact hbusy (h.fresh id (not_lt.mp hge))
  have hrests := h.rests id _ (List.getElem?_eq_getElem hlt)
  rw [List.getElem?_eq_getElem hlt]
  cases hprogram : state.programs[id] with
  | await question next => exact ⟨question, next, rfl⟩
  | done a =>
      rw [hprogram] at hrests
      exact absurd hrests hbusy
  | fail e =>
      rw [hprogram] at hrests
      exact absurd hrests hbusy
  | read next =>
      rw [hprogram] at hrests
      exact hrests.elim
  | write t next =>
      rw [hprogram] at hrests
      exact hrests.elim

theorem Kept.start (hkeeps : Keeps system contract) {state : State σ ε Answer}
    (h : Kept contract state) (job : τ) {t : σ} {program : Program σ ε Answer Unit}
    (hadvance : (system.program job state.programs.length).advance state.shared = (t, program)) :
    Kept contract ⟨t, state.programs ++ [program]⟩ ∧ contract.Moves state.shared t := by
  obtain ⟨hallows, hrests⟩ := (hkeeps.start job state.programs.length state.shared h.inv
    (h.fresh _ le_rfl)).advance h.inv
  rw [hadvance] at hallows hrests
  refine ⟨⟨hallows.inv, fun id it hit => ?_, fun id hle => ?_⟩, hallows.moves⟩
  · rcases lt_or_ge id state.programs.length with hlt | hge
    · rw [List.getElem?_append_left hlt] at hit
      exact (h.rests id it hit).leaves (hallows.leaves id hlt.ne)
    · rw [List.getElem?_append_right hge] at hit
      obtain ⟨hindex, rfl⟩ := List.getElem?_eq_some_iff.mp hit
      obtain rfl : id = state.programs.length := by
        simp only [List.length_singleton] at hindex
        omega
      simpa using hrests
  · have hlt : state.programs.length < id := by
      simpa [Nat.add_one_le_iff] using hle
    exact contract.idle_leaves (hallows.leaves id hlt.ne') (h.fresh id hlt.le)

theorem Kept.resume {state : State σ ε Answer} (h : Kept contract state) {id : ℕ} {question : κ}
    {next : Answer question → Program σ ε Answer Unit}
    (hat : state.programs[id]? = some (.await question next))
    (henabled : system.enabled state.shared question = true) {answer : Answer question}
    (hpermits : contract.Permits state.shared question answer) {t : σ}
    {program : Program σ ε Answer Unit} (hadvance : (next answer).advance state.shared = (t, program)) :
    Kept contract ⟨t, state.programs.set id program⟩ ∧ contract.Moves state.shared t := by
  obtain ⟨hallows, hrests⟩ := (h.rests id _ hat state.shared h.inv (contract.leaves_refl id _)
    henabled answer hpermits).advance h.inv
  rw [hadvance] at hallows hrests
  have hlt : id < state.programs.length := (List.getElem?_eq_some_iff.mp hat).1
  refine ⟨⟨hallows.inv, fun other it hit => ?_, fun other hle => ?_⟩, hallows.moves⟩
  · rcases eq_or_ne other id with rfl | hne
    · rw [List.getElem?_set_self hlt] at hit
      exact Option.some.inj hit ▸ hrests
    · rw [List.getElem?_set_ne hne.symm] at hit
      exact (h.rests other it hit).leaves (hallows.leaves other hne)
  · rw [List.length_set] at hle
    exact contract.idle_leaves (hallows.leaves other (by omega)) (h.fresh other hle)

theorem Kept.step (hkeeps : Keeps system contract) {state state' : State σ ε Answer}
    {event : Event τ Answer η} (h : Kept contract state)
    (hpermitted : Permitted contract.Permits state event)
    (hstep : step system state event = some state') :
    Kept contract state' ∧ contract.Moves state.shared state'.shared := by
  cases event with
  | start job =>
      obtain rfl := Option.some.inj hstep
      exact h.start hkeeps job rfl
  | resume id answers =>
      simp only [Async.step] at hstep
      split at hstep
      next question next hat =>
        split at hstep
        next henabled =>
          obtain rfl := Option.some.inj hstep
          exact h.resume hat henabled (hpermitted question (by rw [hat]; rfl)) rfl
        · cases hstep
      · cases hstep
  | outside event =>
      obtain ⟨shared, hshared, rfl⟩ := Option.map_eq_some_iff.mp hstep
      obtain ⟨hinv, hmoves, hleaves⟩ := hkeeps.outside _ _ _ h.inv hshared
      exact ⟨⟨hinv, fun id program hprogram => (h.rests id program hprogram).leaves (hleaves id),
        fun id hle => contract.idle_leaves (hleaves id) (h.fresh id hle)⟩, hmoves⟩

/-- Programs that keep a contract keep its invariant in every run with permitted
answers, and the state moves as the contract says. -/
theorem Kept.run (hkeeps : Keeps system contract) {state state' : State σ ε Answer}
    {events : List (Event τ Answer η)} (h : Kept contract state)
    (hpermitted : Runs.Along (Async.step system) (Permitted contract.Permits) state events)
    (hrun : Runs.run (Async.step system) state events = some state') :
    Kept contract state' ∧ contract.Moves state.shared state'.shared := by
  refine Runs.invariant_of_along (I := fun reached : State σ ε Answer =>
    Kept contract reached ∧ contract.Moves state.shared reached.shared)
    (fun reached event next hreached hpermitted hstep => ?_)
    ⟨h, contract.moves_refl _⟩ hpermitted hrun
  obtain ⟨hkept, hmoves⟩ := hreached.1.step hkeeps hpermitted hstep
  exact ⟨hkept, contract.moves_trans hreached.2 hmoves⟩

theorem along_permitted (hpermits : ∀ s question answer, contract.Permits s question answer)
    (state : State σ ε Answer) (events : List (Event τ Answer η)) :
    Runs.Along (Async.step system) (Permitted contract.Permits) state events := by
  induction events generalizing state with
  | nil => trivial
  | cons event events ih =>
      refine ⟨?_, fun state' _ => ih state'⟩
      cases event with
      | resume id answers => exact fun question _ => hpermits _ question _
      | start job => trivial
      | outside event => trivial

theorem kept_initial {s : σ} (hs : contract.Inv s) (hidle : ∀ id, contract.Idle id s) :
    Kept contract (⟨s, []⟩ : State σ ε Answer) :=
  ⟨hs, fun id program hprogram => by simp at hprogram, fun id _ => hidle id⟩

end Soundness

end Async
