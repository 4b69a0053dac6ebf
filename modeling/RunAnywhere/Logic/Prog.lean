import RunAnywhere.Logic.TSys

/-!
# Programs made of atomic actions

A program is a tree: it is done, or it performs an action and goes on with the
answer. A `Machine` runs a pool of such programs over a shared state, one action
at a time, in any order:

* **threads** — `spawn`, `act`, `finish`; a thread may be killed between two
  actions, and a crash drops the threads of the process that died together with the
  memory they shared;
* **nature** — what an action does is a function of the state and of the choices
  nature makes (`perform`), so a run is determined by its commands and can be
  evaluated;
* **environment** — moves of the state that no thread makes.

`Machine.system` is the transition system of a machine whose actions meet a
condition `cond`: the runs in which every action is performed in a state where
the condition holds of it.
-/

namespace Logic

/-- A program over actions `Act` answered in `Res`. -/
inductive Prog (Act : Type) (Res : Act → Type) (α : Type) : Type
  | done (a : α) : Prog Act Res α
  | act (x : Act) (k : Res x → Prog Act Res α) : Prog Act Res α

namespace Prog

variable {Act : Type} {Res : Act → Type} {α β ε ε' : Type}

def bind : Prog Act Res α → (α → Prog Act Res β) → Prog Act Res β
  | .done a, f => f a
  | .act x k, f => .act x fun r => (k r).bind f

instance : Monad (Prog Act Res) where
  pure := .done
  bind := bind

/-- Perform one action and return its answer. -/
def perform (x : Act) : Prog Act Res (Res x) := .act x .done

@[simp] theorem pure_bind' (a : α) (f : α → Prog Act Res β) : (Prog.done a >>= f) = f a := rfl

@[simp] theorem act_bind (x : Act) (k : Res x → Prog Act Res α) (f : α → Prog Act Res β) :
    (Prog.act x k >>= f) = .act x fun r => k r >>= f := rfl

end Prog

/-- A program that may fail: a failure skips the rest. -/
def Routine (Act : Type) (Res : Act → Type) (ε α : Type) : Type := Prog Act Res (Except ε α)

namespace Routine

variable {Act : Type} {Res : Act → Type} {α β ε ε' : Type}

def bind (p : Routine Act Res ε α) (f : α → Routine Act Res ε β) : Routine Act Res ε β :=
  Prog.bind p fun
    | .ok a => f a
    | .error e => .done (.error e)

instance : Monad (Routine Act Res ε) where
  pure a := Prog.done (.ok a)
  bind := bind

/-- What follows the first of two routines: its failure is the answer. -/
def proceed (f : α → Routine Act Res ε β) : Except ε α → Prog Act Res (Except ε β)
  | .ok a => f a
  | .error e => .done (.error e)

/-- Fail. -/
def fail (e : ε) : Routine Act Res ε α := Prog.done (.error e)

/-- A program that cannot fail. -/
def lift (p : Prog Act Res α) : Routine Act Res ε α := Prog.bind p fun a => .done (.ok a)

/-- The outcome of a program that answers a result (the operator `?`). -/
def try_ (p : Prog Act Res (Except ε' α)) (f : ε' → ε) : Routine Act Res ε α :=
  Prog.bind p fun r => .done (r.mapError f)

/-- The value of a result, or fail with its error. -/
def ofExcept (r : Except ε α) : Routine Act Res ε α := Prog.done r

/-- What a routine came to, as a value of another one. -/
def attempt (p : Routine Act Res ε α) : Routine Act Res ε' (Except ε α) :=
  Prog.bind p fun r => .done (.ok r)

instance : MonadLift (Prog Act Res) (Routine Act Res ε) where
  monadLift := lift

end Routine

/-- One running program: what it was spawned for, the state it was spawned in, and
what is left of it. -/
structure Thread (σ Act : Type) (Res : Act → Type) (ι ρ : Type) where
  tag : ι
  birth : σ
  rest : Prog Act Res ρ

/-- The shared state and the running programs. -/
structure Pool (σ Act : Type) (Res : Act → Type) (ι ρ : Type) where
  state : σ
  threads : List (Thread σ Act Res ι ρ)

/-- What happens next. -/
inductive Cmd (ι ω η : Type)
  | spawn (i : ι)
  | act (n : Nat) (o : ω)
  | finish (n : Nat)
  | kill (n : Nat)
  | env (e : η)
  | crash

/-- A machine: `perform` is the effect of an action under nature's choices, `none`
when they are impossible; `enabled` says which programs may be spawned, `survives`
which outlive a crash. -/
structure Machine (σ Act : Type) (Res : Act → Type) (ι ρ ω η : Type) where
  perform : σ → (x : Act) → ω → Option (Res x × σ)
  prog : ι → Prog Act Res ρ
  enabled : σ → ι → Bool
  survives : ι → Bool
  env : σ → η → Option σ
  crash : σ → σ

namespace Machine

variable {σ Act : Type} {Res : Act → Type} {ι ρ ω η : Type} (M : Machine σ Act Res ι ρ ω η)

/-- `x` may be answered with `r` and lead to `s'`. -/
def Exec (s : σ) (x : Act) (r : Res x) (s' : σ) : Prop := ∃ o, M.perform s x o = some (r, s')

/-- The pool after a command, `none` when the command is impossible. -/
def next (p : Pool σ Act Res ι ρ) : Cmd ι ω η → Option (Pool σ Act Res ι ρ)
  | .spawn i =>
      if M.enabled p.state i then some ⟨p.state, p.threads ++ [⟨i, p.state, M.prog i⟩]⟩ else none
  | .act n o =>
      match p.threads[n]? with
      | some ⟨i, b, .act x k⟩ =>
          (M.perform p.state x o).map fun r => ⟨r.2, p.threads.set n ⟨i, b, k r.1⟩⟩
      | _ => none
  | .finish n =>
      match p.threads[n]? with
      | some ⟨_, _, .done _⟩ => some ⟨p.state, p.threads.eraseIdx n⟩
      | _ => none
  | .kill n => some ⟨p.state, p.threads.eraseIdx n⟩
  | .env e => (M.env p.state e).map fun s => ⟨s, p.threads⟩
  | .crash => some ⟨M.crash p.state, p.threads.filter fun th => M.survives th.tag⟩

/-- The action thread `n` performs next. -/
def action? (p : Pool σ Act Res ι ρ) (n : Nat) : Option Act :=
  match p.threads[n]? with
  | some ⟨_, _, .act x _⟩ => some x
  | _ => none

/-- The command performs action `x`. -/
def Performs (p : Pool σ Act Res ι ρ) (c : Cmd ι ω η) (x : Act) : Prop :=
  ∃ n o, c = .act n o ∧ action? p n = some x

/-- The runs from `init` whose actions meet `cond` in the state they are performed in. -/
def system (init : σ → Prop) (cond : σ → Act → Prop) :
    TSys (Pool σ Act Res ι ρ) (Cmd ι ω η) where
  init p := init p.state ∧ p.threads = []
  step p c p' := M.next p c = some p' ∧ ∀ x, Performs p c x → cond p.state x

/-! ## Evaluating runs -/

/-- The pool after a list of commands. -/
def replay (p : Pool σ Act Res ι ρ) : List (Cmd ι ω η) → Option (Pool σ Act Res ι ρ)
  | [] => some p
  | c :: cs => (M.next p c).bind fun p' => replay p' cs

/-- A replay is a run. -/
theorem replay_run {init : σ → Prop} {cs : List (Cmd ι ω η)} {p p' : Pool σ Act Res ι ρ}
    (h : M.replay p cs = some p') : (M.system init fun _ _ => True).Run p cs p' := by
  induction cs generalizing p with
  | nil =>
      obtain rfl := Option.some.inj h
      exact .nil p
  | cons c cs ih =>
      obtain ⟨p₁, hnext, hrest⟩ := Option.bind_eq_some_iff.mp h
      have hstep : (M.system init fun _ _ => True).step p c p₁ := ⟨hnext, fun _ _ => trivial⟩
      exact (TSys.Run.single hstep).append (ih hrest)

/-- The actions of a replay, in their states, pass a check. -/
def replayMeets (check : σ → Act → Bool) (p : Pool σ Act Res ι ρ) : List (Cmd ι ω η) → Bool
  | [] => true
  | c :: cs =>
      (match c with
        | .act n _ => (action? p n).all (check p.state)
        | _ => true) && (M.next p c).all fun p' => replayMeets check p' cs

/-- A replay whose actions pass a check is a run of the system with the condition. -/
theorem replayMeets_run {init : σ → Prop} {cond : σ → Act → Prop} {check : σ → Act → Bool}
    (hcheck : ∀ s x, check s x = true → cond s x) {cs : List (Cmd ι ω η)}
    {p p' : Pool σ Act Res ι ρ} (h : M.replay p cs = some p')
    (hmeets : M.replayMeets check p cs = true) : (M.system init cond).Run p cs p' := by
  induction cs generalizing p with
  | nil =>
      obtain rfl := Option.some.inj h
      exact .nil p
  | cons c cs ih =>
      obtain ⟨p₁, hnext, hrest⟩ := Option.bind_eq_some_iff.mp h
      unfold replayMeets at hmeets
      obtain ⟨hact, hmeets⟩ := Bool.and_eq_true_iff.mp hmeets
      rw [hnext, Option.all_some] at hmeets
      have hstep : (M.system init cond).step p c p₁ := by
        refine ⟨hnext, ?_⟩
        rintro x ⟨n, o, rfl, hx⟩
        simp only [hx, Option.all_some] at hact
        exact hcheck p.state x hact
      exact (TSys.Run.single hstep).append (ih hrest hmeets)

end Machine

end Logic
