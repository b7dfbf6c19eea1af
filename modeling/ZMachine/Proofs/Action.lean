import Mathlib.Order.Defs.Unbundled
import ZMachine.Fault

/-!
# Effects of actions

An action that fails keeps what it has changed before the failure. A law about the states that a
story can get into therefore speaks about the state that an action leaves behind, whatever its
result.

`Keeps` is such a law for actions that change the state in one way throughout, so that it carries
over from the parts of an action to the whole. `Leads` is one for actions whose last part decides
what happens: what comes before that part keeps a relation that the law absorbs.
-/

namespace ZMachine

variable {σ α β : Type}

/-- The state that an action leaves behind, whether it succeeds or fails. -/
def stateAfter (action : EStateM Fault σ α) (state : σ) : σ :=
  match action state with
  | .ok _ after => after
  | .error _ after => after

/-- The value of an action, if it succeeds. -/
def valueOf (action : EStateM Fault σ α) (state : σ) : Option α :=
  match action state with
  | .ok value _ => some value
  | .error _ _ => none

/-- Whatever becomes of the action, the states before and after it are related. -/
def Keeps (relation : σ → σ → Prop) (action : EStateM Fault σ α) : Prop :=
  ∀ state, relation state (stateAfter action state)

/-- The states before and after the action are related in a way that depends on its value. -/
def Leads (law : σ → Option α → σ → Prop) (action : EStateM Fault σ α) : Prop :=
  ∀ state, law state (valueOf action state) (stateAfter action state)

section Results

variable {action : EStateM Fault σ α} {state after : σ} {value : α} {fault : Fault}

theorem stateAfter_of_ok (success : action state = .ok value after) :
    stateAfter action state = after := by
  rw [stateAfter, success]

theorem stateAfter_of_error (failure : action state = .error fault after) :
    stateAfter action state = after := by
  rw [stateAfter, failure]

theorem valueOf_of_ok (success : action state = .ok value after) :
    valueOf action state = some value := by
  rw [valueOf, success]

theorem valueOf_of_error (failure : action state = .error fault after) :
    valueOf action state = none := by
  rw [valueOf, failure]

theorem eq_ok_of_valueOf (found : valueOf action state = some value) :
    action state = .ok value (stateAfter action state) := by
  unfold valueOf at found
  unfold stateAfter
  cases run : action state with
  | ok result later =>
      simp only [run, Option.some.injEq] at found
      rw [found]
  | error fault later => simp [run] at found

theorem eq_ok_of_toOption {result : Except Fault α} (found : result.toOption = some value) :
    result = .ok value := by
  cases result with
  | error fault => simp [Except.toOption] at found
  | ok other =>
      simp only [Except.toOption, Option.some.injEq] at found
      rw [found]

theorem bind_of_ok {next : α → EStateM Fault σ β} (success : action state = .ok value after) :
    (action >>= next) state = next value after := by
  simp only [bind, EStateM.bind, success]

theorem bind_of_error {next : α → EStateM Fault σ β} (failure : action state = .error fault after) :
    (action >>= next) state = .error fault after := by
  simp only [bind, EStateM.bind, failure]

theorem bind_get (next : σ → EStateM Fault σ α) (state : σ) :
    ((get : EStateM Fault σ σ) >>= next) state = next state state :=
  rfl

theorem bind_set (new : σ) (next : PUnit → EStateM Fault σ α) (state : σ) :
    ((set new : EStateM Fault σ PUnit) >>= next) state = next () new :=
  rfl

theorem bind_modify (change : σ → σ) (next : PUnit → EStateM Fault σ α) (state : σ) :
    ((modify change : EStateM Fault σ PUnit) >>= next) state = next () (change state) :=
  rfl

end Results

/-- A sequence of two actions succeeds if both do. -/
theorem bind_eq_ok {action : EStateM Fault σ α} {next : α → EStateM Fault σ β} {state after : σ}
    {value : β} :
    (action >>= next) state = .ok value after ↔
      ∃ first middle, action state = .ok first middle ∧ next first middle = .ok value after := by
  cases run : action state with
  | ok first middle =>
      rw [bind_of_ok run]
      constructor
      · intro success
        exact ⟨first, middle, rfl, success⟩
      · rintro ⟨_, _, same, success⟩
        cases same
        exact success
  | error fault middle =>
      rw [bind_of_error run]
      constructor
      · intro success
        cases success
      · rintro ⟨_, _, impossible, _⟩
        cases impossible

/-- A query that goes on with the answer of another one succeeds if both do. -/
theorem query_bind_eq_ok {query : Except Fault α} {next : α → Except Fault β} {value : β} :
    (query >>= next) = .ok value ↔ ∃ first, query = .ok first ∧ next first = .ok value := by
  cases query with
  | ok first =>
      constructor
      · intro success
        exact ⟨first, rfl, success⟩
      · rintro ⟨_, same, success⟩
        cases same
        exact success
  | error fault =>
      constructor
      · intro success
        cases success
      · rintro ⟨_, impossible, _⟩
        cases impossible

/-- A sequence of two actions fails if the first does, or if the second does after it. -/
theorem bind_eq_error {action : EStateM Fault σ α} {next : α → EStateM Fault σ β} {state after : σ}
    {fault : Fault} (failed : (action >>= next) state = .error fault after) :
    action state = .error fault after ∨
      ∃ first middle, action state = .ok first middle ∧ next first middle = .error fault after := by
  cases run : action state with
  | ok first middle =>
      rw [bind_of_ok run] at failed
      exact Or.inr ⟨first, middle, rfl, failed⟩
  | error reason middle =>
      rw [bind_of_error run] at failed
      cases failed
      exact Or.inl rfl

/-- The outcome of what comes last does not matter for the state it leaves. -/
theorem stateAfter_bind_pure (action : EStateM Fault σ α) (value : α → β)
    (state : σ) :
    stateAfter (do
      let found ← action
      return value found : EStateM Fault σ β) state = stateAfter action state := by
  cases run : action state with
  | ok found after =>
      rw [stateAfter, bind_of_ok run, stateAfter_of_ok run]
      rfl
  | error fault after => rw [stateAfter, bind_of_error run, stateAfter_of_error run]

/-- An action that ends with a fixed value has that value or none. -/
theorem valueOf_bind_pure (action : EStateM Fault σ α) (value : β) (state : σ) :
    valueOf (do
      let _ ← action
      return value : EStateM Fault σ β) state = none ∨
    valueOf (do
      let _ ← action
      return value : EStateM Fault σ β) state = some value := by
  cases run : action state with
  | ok found after =>
      rw [valueOf, bind_of_ok run]
      exact Or.inr rfl
  | error fault after =>
      rw [valueOf, bind_of_error run]
      exact Or.inl rfl

namespace Keeps

variable {relation : σ → σ → Prop}

theorem of_ok {action : EStateM Fault σ α} {state after : σ} {value : α}
    (keeps : Keeps relation action) (success : action state = .ok value after) :
    relation state after := by
  rw [← stateAfter_of_ok success]
  exact keeps state

theorem of_error {action : EStateM Fault σ α} {state after : σ} {fault : Fault}
    (keeps : Keeps relation action) (failure : action state = .error fault after) :
    relation state after := by
  rw [← stateAfter_of_error failure]
  exact keeps state

/-- What keeps a relation keeps every weaker one. -/
theorem mono {weaker : σ → σ → Prop} {action : EStateM Fault σ α} (keeps : Keeps relation action)
    (weakens : ∀ {before after}, relation before after → weaker before after) :
    Keeps weaker action :=
  fun state => weakens (keeps state)

theorem ite {condition : Prop} [Decidable condition] {first second : EStateM Fault σ α}
    (holds : Keeps relation first) (fails : Keeps relation second) :
    Keeps relation (if condition then first else second) := by
  split
  · exact holds
  · exact fails

variable [IsPreorder σ relation]

theorem pure (value : α) : Keeps relation (Pure.pure value : EStateM Fault σ α) :=
  fun state => refl_of relation state

theorem throw (fault : Fault) :
    Keeps relation (MonadExcept.throw fault : EStateM Fault σ α) :=
  fun state => refl_of relation state

theorem bind {action : EStateM Fault σ α} {next : α → EStateM Fault σ β}
    (first : Keeps relation action) (rest : ∀ value, Keeps relation (next value)) :
    Keeps relation (action >>= next) := by
  intro state
  cases run : action state with
  | ok value middle =>
      rw [stateAfter, bind_of_ok run]
      exact trans_of relation (first.of_ok run) (rest value middle)
  | error fault middle =>
      rw [stateAfter, bind_of_error run]
      exact first.of_error run

end Keeps

namespace Leads

variable {relation : σ → σ → Prop} {law : σ → Option β → σ → Prop}

/-- What comes before the deciding part only has to keep a relation that the law absorbs. -/
theorem after {action : EStateM Fault σ α} {next : α → EStateM Fault σ β}
    (first : Keeps relation action) (rest : ∀ value, Leads law (next value))
    (failed : ∀ {before middle}, relation before middle → law before none middle)
    (absorbed : ∀ {before middle value last}, relation before middle → law middle value last →
      law before value last) :
    Leads law (action >>= next) := by
  intro state
  cases run : action state with
  | ok value middle =>
      rw [valueOf, stateAfter, bind_of_ok run]
      exact absorbed (first.of_ok run) (rest value middle)
  | error fault middle =>
      rw [valueOf, stateAfter, bind_of_error run]
      exact failed (first.of_error run)

end Leads

end ZMachine
