import Mathlib.Logic.Basic

/-!
# Calls around a host function

A wrapper calls a host function between calls of its own. Both may throw. An
effect takes the arguments the host function has been called with so far and
gives an outcome and the arguments in the end; an exception remembers whether it
came out of the host function.

`Delivers` says that a wrapper calls the host function once, with the right
arguments, and has its outcome. The rules take a wrapper apart: a call of its own
must not throw, what it does with the outcome must give it back, and an exception
handler must rethrow.
-/

universe u v

/-- An exception of the host function, or another one. -/
inductive Thrown (ε : Type u)
  | host (error : ε)
  | other (error : ε)

/-- A computation that may call the host function with arguments of type `ρ`. -/
def Effect (ε : Type u) (ρ : Type v) (α : Type u) : Type (max u v) :=
  List ρ → Except (Thrown ε) α × List ρ

namespace Effect

variable {ε : Type u} {ρ : Type v} {α β : Type u}

def run (effect : Effect ε ρ α) (calls : List ρ) : Except (Thrown ε) α × List ρ := effect calls

theorem mapError_ok {ε' : Type v} (f : ε → ε') (a : α) :
    (.ok a : Except ε α).mapError f = .ok a := rfl

theorem mapError_error {ε' : Type v} (f : ε → ε') (error : ε) :
    (.error error : Except ε α).mapError f = .error (f error) := rfl

instance : Monad (Effect ε ρ) where
  pure a := fun calls => (.ok a, calls)
  bind effect next := fun calls =>
    match effect calls with
    | (.ok a, calls) => next a calls
    | (.error thrown, calls) => (.error thrown, calls)

def throw (thrown : Thrown ε) : Effect ε ρ α := fun calls => (.error thrown, calls)

/-- A computation of the wrapper. -/
def lift (result : Except ε α) : Effect ε ρ α := fun calls => (result.mapError .other, calls)

/-- The call of the host function. -/
def invoke (host : ρ → Except ε α) (arguments : ρ) : Effect ε ρ α := fun calls =>
  ((host arguments).mapError .host, calls ++ [arguments])

/-- `try { body } catch (error) { onError }`. -/
def attempt (body : Effect ε ρ α) (onError : Thrown ε → Effect ε ρ α) : Effect ε ρ α := fun calls =>
  match body calls with
  | (.ok a, calls) => (.ok a, calls)
  | (.error thrown, calls) => onError thrown calls

/-- `try { body } finally { cleanup }`: an exception of the cleanup replaces the outcome. -/
def ensure (body : Effect ε ρ α) (cleanup : Except (Thrown ε) α → Effect ε ρ β) : Effect ε ρ α :=
  fun calls =>
    match body calls with
    | (outcome, calls) =>
        match cleanup outcome calls with
        | (.ok _, calls) => (outcome, calls)
        | (.error thrown, calls) => (.error thrown, calls)

/-- How a function that takes a callback treats it. -/
inductive Treatment (ε : Type u)
  | throwsBefore (error : ε)
  | calls
  | throwsAfter (error : ε)

def within (treatment : Treatment ε) (body : Effect ε ρ α) : Effect ε ρ α :=
  match treatment with
  | .throwsBefore error => throw (.other error)
  | .calls => body
  | .throwsAfter error => fun calls => (.error (.other error), (body calls).2)

/-! ## Computations of the wrapper -/

/-- The effect never calls the host function and has this result. -/
def Settled (effect : Effect ε ρ α) (result : Except ε α) : Prop :=
  ∀ calls, run effect calls = (result.mapError .other, calls)

theorem settled_pure (a : α) : Settled (pure a : Effect ε ρ α) (.ok a) := fun _ => rfl

theorem settled_lift (result : Except ε α) : Settled (lift result : Effect ε ρ α) result :=
  fun _ => rfl

theorem Settled.bind {effect : Effect ε ρ α} {next : α → Effect ε ρ β} {result : Except ε α}
    {results : α → Except ε β} (h : Settled effect result)
    (hnext : ∀ a, Settled (next a) (results a)) :
    Settled (effect >>= next) (result.bind results) := by
  intro calls
  have heffect : effect calls = (result.mapError .other, calls) := h calls
  cases result with
  | ok a =>
      have hrun : run (effect >>= next) calls = next a calls := by
        simp only [run, Bind.bind, heffect, mapError_ok]
      exact hrun.trans (hnext a calls)
  | error error => simp only [run, Bind.bind, heffect, mapError_error, Except.bind]

/-- A guarded computation has a result in any case. -/
theorem Settled.attempt {effect : Effect ε ρ α} {result : Except ε α} {fallback : α}
    (h : Settled effect result) :
    Settled (attempt effect fun _ => pure fallback) (.ok (result.toOption.getD fallback)) := by
  intro calls
  have heffect : effect calls = (result.mapError .other, calls) := h calls
  cases result with
  | ok a => simp only [run, Effect.attempt, heffect, mapError_ok]; rfl
  | error error => simp only [run, Effect.attempt, heffect, mapError_ok, mapError_error]; rfl

/-! ## Delivery -/

/-- The host function is called once, with these arguments, and its outcome is the effect's. -/
def Delivers (arguments : ρ) (outcome : Except ε α) (effect : Effect ε ρ α) : Prop :=
  run effect [] = (outcome.mapError .host, [arguments])

section Rules

variable {arguments : ρ} {outcome : Except ε α} {effect : Effect ε ρ α}

theorem mapError_host_ne_other (outcome : Except ε α) (error : ε) :
    (outcome.mapError .host : Except (Thrown ε) α) ≠ .error (.other error) := by
  cases outcome with
  | ok a => exact fun h => by cases h
  | error e => exact fun h => by cases h

theorem mapError_host_injective {a b : Except ε α}
    (h : (a.mapError .host : Except (Thrown ε) α) = b.mapError .host) : a = b := by
  cases a with
  | ok a =>
      cases b with
      | ok b => exact congrArg Except.ok (Except.ok.inj h)
      | error b => cases h
  | error a =>
      cases b with
      | ok b => cases h
      | error b => exact congrArg Except.error (Thrown.host.inj (Except.error.inj h))

theorem delivers_invoke (host : ρ → Except ε α) (arguments : ρ) :
    Delivers arguments (host arguments) (invoke host arguments) := rfl

theorem delivers_invoke_iff {host : ρ → Except ε α} {called : ρ} :
    Delivers arguments outcome (invoke host called) ↔
      called = arguments ∧ host called = outcome := by
  constructor
  · intro h
    refine ⟨?_, mapError_host_injective (congrArg Prod.fst h)⟩
    exact (List.cons.inj (congrArg Prod.snd h)).1
  · rintro ⟨rfl, rfl⟩
    exact delivers_invoke host called

/-- A computation of the wrapper before the call has to succeed. -/
theorem delivers_settled_bind {first : Effect ε ρ β} {result : Except ε β}
    {next : β → Effect ε ρ α} (h : Settled first result) :
    Delivers arguments outcome (first >>= next) ↔
      ∃ b, result = .ok b ∧ Delivers arguments outcome (next b) := by
  have hfirst : first [] = (result.mapError .other, []) := h []
  cases result with
  | ok b =>
      have hrun : run (first >>= next) [] = run (next b) [] := by
        simp only [run, Bind.bind, hfirst, mapError_ok]
      unfold Delivers
      rw [hrun]
      refine ⟨fun h => ⟨b, rfl, h⟩, ?_⟩
      rintro ⟨b', hb, h⟩
      rwa [Except.ok.inj hb]
  | error error =>
      have hrun : run (first >>= next) [] = (.error (.other error), []) := by
        simp only [run, Bind.bind, hfirst, mapError_error]
      unfold Delivers
      rw [hrun]
      constructor
      · intro h
        exact absurd (congrArg Prod.snd h).symm (List.cons_ne_nil _ _)
      · rintro ⟨b, hb, -⟩
        cases hb

/-- What the wrapper computes from the outcome must give it back. -/
theorem delivers_bind_settled {next : α → Effect ε ρ α} {results : α → Except ε α}
    (h : ∀ a, Settled (next a) (results a)) (hback : ∀ a b, results a = .ok b → b = a) :
    Delivers arguments outcome (effect >>= next) ↔
      Delivers arguments outcome effect ∧ ∀ a, outcome = .ok a → results a = .ok a := by
  rcases heffect : effect [] with ⟨thrown | a, calls⟩
  · have hrun : run (effect >>= next) [] = (.error thrown, calls) := by
      simp only [run, Bind.bind, heffect]
    have hrun' : run effect [] = (.error thrown, calls) := heffect
    unfold Delivers
    rw [hrun, hrun']
    refine ⟨fun h => ⟨h, ?_⟩, fun h => h.1⟩
    rintro a rfl
    cases (congrArg Prod.fst h)
  · have hnext : next a calls = ((results a).mapError .other, calls) := h a calls
    have hrun : run (effect >>= next) [] = ((results a).mapError .other, calls) := by
      simp only [run, Bind.bind, heffect, hnext]
    have hrun' : run effect [] = (.ok a, calls) := heffect
    unfold Delivers
    rw [hrun, hrun']
    cases hresult : results a with
    | ok b =>
        obtain rfl := hback a b hresult
        refine ⟨fun h => ⟨h, ?_⟩, fun h => h.1⟩
        rintro c rfl
        obtain rfl : b = c := Except.ok.inj (congrArg Prod.fst h)
        exact hresult
    | error error =>
        constructor
        · intro h
          exact absurd (congrArg Prod.fst h).symm (mapError_host_ne_other _ _)
        · rintro ⟨h, hok⟩
          cases outcome with
          | ok c =>
              obtain rfl : a = c := Except.ok.inj (congrArg Prod.fst h)
              rw [hok a rfl] at hresult
              cases hresult
          | error e => cases (congrArg Prod.fst h)

/-- The wrapper may make anything of the outcome; what it makes of it is delivered. -/
theorem delivers_bind {effect : Effect ε ρ β} {next : β → Effect ε ρ α}
    {results : β → Except ε α} (h : ∀ b, Settled (next b) (results b)) :
    Delivers arguments outcome (effect >>= next) ↔
      (∃ a b, Delivers arguments (.ok b) effect ∧ results b = .ok a ∧ outcome = .ok a) ∨
        ∃ error, Delivers arguments (.error error) effect ∧ outcome = .error error := by
  rcases heffect : effect [] with ⟨thrown | b, calls⟩
  · have hrun : run (effect >>= next) [] = (.error thrown, calls) := by
      simp only [run, Bind.bind, heffect]
    have hrun' : run effect [] = (.error thrown, calls) := heffect
    unfold Delivers
    rw [hrun, hrun']
    constructor
    · intro h
      cases outcome with
      | ok a => cases (congrArg Prod.fst h)
      | error error =>
          obtain rfl : thrown = .host error := Except.error.inj (congrArg Prod.fst h)
          obtain rfl : calls = [arguments] := congrArg Prod.snd h
          exact .inr ⟨error, rfl, rfl⟩
    · rintro (⟨a, b, h, -, rfl⟩ | ⟨error, h, rfl⟩)
      · cases (congrArg Prod.fst h)
      · obtain rfl : thrown = .host error := Except.error.inj (congrArg Prod.fst h)
        obtain rfl : calls = [arguments] := congrArg Prod.snd h
        rfl
  · have hnext : next b calls = ((results b).mapError .other, calls) := h b calls
    have hrun : run (effect >>= next) [] = ((results b).mapError .other, calls) := by
      simp only [run, Bind.bind, heffect, hnext]
    have hrun' : run effect [] = (.ok b, calls) := heffect
    unfold Delivers
    rw [hrun, hrun']
    constructor
    · intro h
      obtain rfl : calls = [arguments] := congrArg Prod.snd h
      cases hresult : results b with
      | ok a =>
          rw [hresult] at h
          cases outcome with
          | ok a' =>
              obtain rfl : a = a' := Except.ok.inj (congrArg Prod.fst h)
              exact .inl ⟨a, b, rfl, hresult, rfl⟩
          | error error => cases (congrArg Prod.fst h)
      | error error =>
          rw [hresult] at h
          exact absurd (congrArg Prod.fst h).symm (mapError_host_ne_other _ _)
    · rintro (⟨a, b', h, hresult, rfl⟩ | ⟨error, h, rfl⟩)
      · obtain rfl : b = b' := Except.ok.inj (congrArg Prod.fst h)
        obtain rfl : calls = [arguments] := congrArg Prod.snd h
        rw [hresult]
        rfl
      · cases (congrArg Prod.fst h)

/-- A handler that rethrows is not noticed. -/
theorem delivers_attempt_rethrow {onError : Thrown ε → Effect ε ρ α}
    (h : ∀ thrown calls, run (onError thrown) calls = (.error thrown, calls)) :
    Delivers arguments outcome (attempt effect onError) ↔ Delivers arguments outcome effect := by
  have hrun : run (attempt effect onError) [] = run effect [] := by
    rcases heffect : effect [] with ⟨thrown | a, calls⟩
    · have hthrown : onError thrown calls = (.error thrown, calls) := h thrown calls
      simp only [run, attempt, heffect, hthrown]
    · simp only [run, attempt, heffect]
  unfold Delivers
  rw [hrun]

/-- What a handler does before it rethrows the host's exception must not throw. -/
theorem delivers_attempt_cleanup {cleanup : Thrown ε → Effect ε ρ β}
    {results : Thrown ε → Except ε β} (h : ∀ thrown, Settled (cleanup thrown) (results thrown)) :
    Delivers arguments outcome
        (attempt effect fun thrown => cleanup thrown >>= fun _ => Effect.throw thrown) ↔
      Delivers arguments outcome effect ∧
        ∀ error, outcome = .error error → ∃ b, results (.host error) = .ok b := by
  rcases heffect : effect [] with ⟨thrown | a, calls⟩
  · have hcleanup : cleanup thrown calls = ((results thrown).mapError .other, calls) :=
      h thrown calls
    have hrun' : run effect [] = (.error thrown, calls) := heffect
    unfold Delivers
    rw [hrun']
    cases hresult : results thrown with
    | ok b =>
        have hrun : run (attempt effect fun thrown => cleanup thrown >>= fun _ =>
            (Effect.throw thrown : Effect ε ρ α)) [] = (.error thrown, calls) := by
          simp only [run, attempt, Bind.bind, heffect, hcleanup, hresult, mapError_ok, Effect.throw]
        rw [hrun]
        refine ⟨fun h => ⟨h, ?_⟩, fun h => h.1⟩
        rintro error rfl
        obtain rfl : thrown = .host error := Except.error.inj (congrArg Prod.fst h)
        exact ⟨b, hresult⟩
    | error error =>
        have hrun : run (attempt effect fun thrown => cleanup thrown >>= fun _ =>
            (Effect.throw thrown : Effect ε ρ α)) [] = (.error (.other error), calls) := by
          simp only [run, attempt, Bind.bind, heffect, hcleanup, hresult, mapError_error]
        rw [hrun]
        constructor
        · intro h
          exact absurd (congrArg Prod.fst h).symm (mapError_host_ne_other _ _)
        · rintro ⟨h, hrethrown⟩
          cases outcome with
          | ok a => cases (congrArg Prod.fst h)
          | error e =>
              obtain rfl : thrown = .host e := Except.error.inj (congrArg Prod.fst h)
              obtain ⟨b, hb⟩ := hrethrown e rfl
              rw [hresult] at hb
              cases hb
  · have hrun : run (attempt effect fun thrown => cleanup thrown >>= fun _ =>
        (Effect.throw thrown : Effect ε ρ α)) [] = (.ok a, calls) := by
      simp only [run, attempt, heffect]
    have hrun' : run effect [] = (.ok a, calls) := heffect
    unfold Delivers
    rw [hrun, hrun']
    refine ⟨fun h => ⟨h, ?_⟩, fun h => h.1⟩
    rintro error rfl
    cases (congrArg Prod.fst h)

/-- The cleanup must not throw. -/
theorem delivers_ensure {cleanup : Except (Thrown ε) α → Effect ε ρ β} {result : Except ε β}
    (h : ∀ outcome, Settled (cleanup outcome) result) :
    Delivers arguments outcome (ensure effect cleanup) ↔
      Delivers arguments outcome effect ∧ ∃ b, result = .ok b := by
  rcases heffect : effect [] with ⟨ending, calls⟩
  have hcleanup : cleanup ending calls = (result.mapError .other, calls) := h ending calls
  have hrun' : run effect [] = (ending, calls) := heffect
  unfold Delivers
  cases result with
  | ok b =>
      have hrun : run (ensure effect cleanup) [] = (ending, calls) := by
        simp only [run, ensure, heffect, hcleanup, mapError_ok]
      rw [hrun, hrun']
      exact ⟨fun h => ⟨h, b, rfl⟩, fun h => h.1⟩
  | error error =>
      have hrun : run (ensure effect cleanup) [] = (.error (.other error), calls) := by
        simp only [run, ensure, heffect, hcleanup, mapError_error]
      rw [hrun]
      constructor
      · intro h
        exact absurd (congrArg Prod.fst h).symm (mapError_host_ne_other _ _)
      · rintro ⟨-, b, hb⟩
        cases hb

/-- The callback has to be called, and nothing may be thrown after it. -/
theorem delivers_within {treatment : Treatment ε} :
    Delivers arguments outcome (within treatment effect) ↔
      treatment = .calls ∧ Delivers arguments outcome effect := by
  cases treatment with
  | throwsBefore error =>
      constructor
      · intro h
        exact absurd (congrArg Prod.fst h).symm (mapError_host_ne_other _ _)
      · rintro ⟨h, -⟩
        cases h
  | calls => exact ⟨fun h => ⟨rfl, h⟩, fun h => h.2⟩
  | throwsAfter error =>
      constructor
      · intro h
        exact absurd (congrArg Prod.fst h).symm (mapError_host_ne_other _ _)
      · rintro ⟨h, -⟩
        cases h

end Rules

end Effect
