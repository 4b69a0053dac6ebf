import RunAnywhere.Logic.Path
import RunAnywhere.Logic.Rely

/-!
# Traces of programs

A path forgets the state; a trace keeps it. `Prog.Trace exec p s steps s' q` runs `p` from
state `s`: each action is answered as `exec` allows, the state comes to `s'`, and `q` is left.

* **parts** — a trace of a sequence stops in the first part or goes on to the second
  (`Trace.bind_act`, `Trace.andThen_act`); a part that never performs the action a trace
  stops at is behind it (`Trace.skip`);
* **threads** — every thread of a reachable pool is on a trace of its program in which the
  state moves, between two actions, along a preorder that every step of the pool respects
  (`Machine.trace_states`).
-/

namespace Logic

variable {σ Act : Type} {Res : Act → Type} {ι ρ ω η α β γ ε ε' : Type}

namespace Prog

/-- From `s` the program performs `steps`, answered as `exec` allows, and comes to `s'` and
`q`. -/
inductive Trace (exec : σ → (x : Act) → Res x → σ → Prop) :
    Prog Act Res α → σ → List (Σ x, Res x) → σ → Prog Act Res α → Prop
  | nil (p s) : Trace exec p s [] s p
  | cons {x k s r s₁ steps s' q} : exec s x r s₁ → Trace exec (k r) s₁ steps s' q →
      Trace exec (.act x k) s (⟨x, r⟩ :: steps) s' q

namespace Trace

variable {exec exec' : σ → (x : Act) → Res x → σ → Prop} {p : Prog Act Res α} {s s' : σ}
  {steps : List (Σ x, Res x)} {q : Prog Act Res α} {x : Act}

/-- Forgetting the state. -/
theorem path (h : Trace exec p s steps s' q) : Path p steps q := by
  induction h with
  | nil p s => exact .nil p
  | cons _ _ ih => exact .cons ih

theorem mono (hexec : ∀ s x r s', exec s x r s' → exec' s x r s')
    (h : Trace exec p s steps s' q) : Trace exec' p s steps s' q := by
  induction h with
  | nil p s => exact .nil p s
  | cons hx _ ih => exact .cons (hexec _ _ _ _ hx) ih

/-- The same, for the actions of the program. -/
theorem mono_all {φ : Act → Prop} (hp : All φ p)
    (hexec : ∀ s x r s', φ x → exec s x r s' → exec' s x r s') (h : Trace exec p s steps s' q) :
    Trace exec' p s steps s' q := by
  induction h with
  | nil p s => exact .nil p s
  | cons hx _ ih => exact .cons (hexec _ _ _ _ hp.1 hx) (ih (hp.2 _))

/-- The same, for the steps of the trace. -/
theorem mono_steps {φ : (Σ x, Res x) → Prop}
    (hexec : ∀ s x r s', φ ⟨x, r⟩ → exec s x r s' → exec' s x r s')
    (h : Trace exec p s steps s' q) (hsteps : ∀ step ∈ steps, φ step) :
    Trace exec' p s steps s' q := by
  induction h with
  | nil p s => exact .nil p s
  | cons hx _ ih =>
      have htail := ih fun step hs => hsteps step (List.mem_cons_of_mem _ hs)
      exact .cons (hexec _ _ _ _ (hsteps _ List.mem_cons_self) hx) htail

/-- What every execution satisfies. -/
theorem all_steps {φ : (Σ x, Res x) → Prop} (hexec : ∀ s x r s', exec s x r s' → φ ⟨x, r⟩)
    (h : Trace exec p s steps s' q) : ∀ step ∈ steps, φ step := by
  induction h with
  | nil => exact fun step hs => nomatch hs
  | cons hx _ ih =>
      intro step hs
      rcases List.mem_cons.mp hs with rfl | hrest
      · exact hexec _ _ _ _ hx
      · exact ih step hrest

/-- What the actions of the program keep. -/
theorem keeps {φ : Act → Prop} {P : σ → Prop} (hp : All φ p)
    (hexec : ∀ s x r s', φ x → exec s x r s' → P s → P s') (h : Trace exec p s steps s' q)
    (hs : P s) : P s' := by
  induction h with
  | nil => exact hs
  | cons hx _ ih => exact ih (hp.2 _) (hexec _ _ _ _ hp.1 hx hs)

/-- The end of a trace. -/
theorem ends {φ : (x : Act) → Res x → Prop} {Q : α → Prop} {a : α} (hp : Ends φ Q p)
    (hexec : ∀ s x r s', exec s x r s' → φ x r) (h : Trace exec p s steps s' (.done a)) : Q a := by
  generalize hq : Prog.done a = q at h
  induction h with
  | nil =>
      subst hq
      exact hp
  | cons hx _ ih => exact ih (hp _ (hexec _ _ _ _ hx)) hq

/-- One more step. -/
theorem snoc {k : Res x → Prog Act Res α} (h : Trace exec p s steps s' (.act x k)) {r : Res x}
    {s₁ : σ} (hx : exec s' x r s₁) : Trace exec p s (steps ++ [⟨x, r⟩]) s₁ (k r) := by
  generalize hq : Prog.act x k = q at h
  induction h with
  | nil =>
      subst hq
      exact .cons hx (.nil _ _)
  | cons hy _ ih => exact .cons hy (ih hx hq)

/-! ### Parts -/

theorem perform {r : Res x} (hx : exec s x r s') :
    Trace exec (Prog.perform x) s [⟨x, r⟩] s' (.done r) :=
  .cons hx (.nil _ _)

/-- One part after the other. -/
theorem bind {f : α → Prog Act Res β} {q : Prog Act Res β} {a : α} {s₁ : σ}
    {before after : List (Σ x, Res x)} (hp : Trace exec p s before s₁ (.done a))
    (hf : Trace exec (f a) s₁ after s' q) : Trace exec (p >>= f) s (before ++ after) s' q := by
  generalize ha : Prog.done a = end_ at hp
  induction hp with
  | nil =>
      subst ha
      exact hf
  | cons hx _ ih => exact .cons hx (ih hf ha)

/-- One routine after the other. -/
theorem andThen {p : Routine Act Res ε α} {f : α → Routine Act Res ε β}
    {q : Routine Act Res ε β} {a : α} {s₁ : σ} {before after : List (Σ x, Res x)}
    (hp : Trace exec p s before s₁ (.done (.ok a))) (hf : Trace exec (f a) s₁ after s' q) :
    Trace exec (p >>= f : Routine Act Res ε β) s (before ++ after) s' q :=
  bind (p := p) (a := .ok a) (f := Routine.proceed f) hp hf

theorem map {f : α → β} {a : α} (h : Trace exec p s steps s' (.done a)) :
    Trace exec (p.bind fun a => .done (f a)) s steps s' (.done (f a)) := by
  have hmapped := h.bind (f := fun a => .done (f a)) (.nil (.done (f a)) s')
  rwa [List.append_nil] at hmapped

theorem of_done {a : α} (h : Trace exec (.done a) s steps s' q) :
    steps = [] ∧ s' = s ∧ q = .done a := by
  cases h
  exact ⟨rfl, rfl, rfl⟩

/-- A value is what it comes to. -/
theorem done_done {a b : α} (h : Trace exec (.done a) s steps s' (.done b)) : s' = s ∧ b = a := by
  obtain ⟨_, hs, hr⟩ := of_done h
  exact ⟨hs, Prog.done.inj hr⟩

/-- A trace stops at the first action or performs it. -/
theorem of_act {k : Res x → Prog Act Res α} (h : Trace exec (.act x k) s steps s' q) :
    (steps = [] ∧ s' = s ∧ q = .act x k) ∨
      ∃ r s₁ rest, exec s x r s₁ ∧ steps = ⟨x, r⟩ :: rest ∧ Trace exec (k r) s₁ rest s' q := by
  cases h with
  | nil => exact Or.inl ⟨rfl, rfl, rfl⟩
  | cons hx hrest => exact Or.inr ⟨_, _, _, hx, rfl, hrest⟩

/-- A trace that ends performs the first action. -/
theorem act_done {k : Res x → Prog Act Res α} {a : α}
    (h : Trace exec (.act x k) s steps s' (.done a)) :
    ∃ r s₁ rest, exec s x r s₁ ∧ steps = ⟨x, r⟩ :: rest ∧
      Trace exec (k r) s₁ rest s' (.done a) := by
  rcases h.of_act with ⟨_, _, hq⟩ | hrest
  · cases hq
  · exact hrest

/-- A trace that stops at another action performs the first one. -/
theorem act_ne {y : Act} {k : Res x → Prog Act Res α} {l : Res y → Prog Act Res α}
    (h : Trace exec (.act x k) s steps s' (.act y l)) (hne : y ≠ x) :
    ∃ r s₁ rest, exec s x r s₁ ∧ steps = ⟨x, r⟩ :: rest ∧
      Trace exec (k r) s₁ rest s' (.act y l) := by
  rcases h.of_act with ⟨_, _, hq⟩ | hrest
  · exact absurd (Prog.act.inj hq).1 hne
  · exact hrest

/-- A trace of a sequence that stops at an action is in the first part or in the second. -/
theorem bind_act {f : α → Prog Act Res β} {k : Res x → Prog Act Res β}
    (h : Trace exec (p >>= f) s steps s' (.act x k)) :
    (∃ k₁, Trace exec p s steps s' (.act x k₁)) ∨
      ∃ a s₁ before after, Trace exec p s before s₁ (.done a) ∧
        Trace exec (f a) s₁ after s' (.act x k) ∧ steps = before ++ after := by
  induction p generalizing s steps with
  | done a => exact Or.inr ⟨a, s, [], steps, .nil _ _, h, rfl⟩
  | act y l ih =>
      rcases of_act (k := fun r => l r >>= f) h with ⟨rfl, rfl, hq⟩ | ⟨r, s₁, rest, hx, rfl, hrest⟩
      · obtain rfl := (Prog.act.inj hq).1
        exact Or.inl ⟨l, .nil _ _⟩
      · rcases ih r hrest with ⟨k₁, hin⟩ | ⟨a, s₂, before, after, hp, hf, rfl⟩
        · exact Or.inl ⟨k₁, .cons hx hin⟩
        · exact Or.inr ⟨a, s₂, ⟨y, r⟩ :: before, after, .cons hx hp, hf, rfl⟩

/-- A trace of a sequence that ends goes through both parts. -/
theorem bind_done {f : α → Prog Act Res β} {b : β}
    (h : Trace exec (p >>= f) s steps s' (.done b)) :
    ∃ a s₁ before after, Trace exec p s before s₁ (.done a) ∧
      Trace exec (f a) s₁ after s' (.done b) ∧ steps = before ++ after := by
  induction p generalizing s steps with
  | done a => exact ⟨a, s, [], steps, .nil _ _, h, rfl⟩
  | act y l ih =>
      obtain ⟨r, s₁, rest, hx, rfl, hrest⟩ := act_done (k := fun r => l r >>= f) h
      obtain ⟨a, s₂, before, after, hp, hf, rfl⟩ := ih r hrest
      exact ⟨a, s₂, ⟨y, r⟩ :: before, after, .cons hx hp, hf, rfl⟩

/-- What is made of the value afterwards performs nothing. -/
theorem map_act {f : α → β} {k : Res x → Prog Act Res β}
    (h : Trace exec (p.bind fun a => .done (f a)) s steps s' (.act x k)) :
    ∃ k₁, Trace exec p s steps s' (.act x k₁) := by
  rcases bind_act (f := fun a => .done (f a)) h with hin | ⟨a, s₁, before, after, _, hf, _⟩
  · exact hin
  · exact nomatch hf.of_done.2.2

theorem map_done {f : α → β} {b : β}
    (h : Trace exec (p.bind fun a => .done (f a)) s steps s' (.done b)) :
    ∃ a, b = f a ∧ Trace exec p s steps s' (.done a) := by
  obtain ⟨a, s₁, before, after, hp, hf, rfl⟩ := bind_done (f := fun a => .done (f a)) h
  obtain ⟨rfl, rfl, hb⟩ := hf.of_done
  rw [List.append_nil]
  exact ⟨a, Prog.done.inj hb, hp⟩

/-- A sequence of routines that stops at an action. -/
theorem andThen_act {p : Routine Act Res ε α} {f : α → Routine Act Res ε β}
    {k : Res x → Prog Act Res (Except ε β)}
    (h : Trace exec (p >>= f : Routine Act Res ε β) s steps s' (.act x k)) :
    (∃ k₁, Trace exec p s steps s' (.act x k₁)) ∨
      ∃ a s₁ before after, Trace exec p s before s₁ (.done (.ok a)) ∧
        Trace exec (f a) s₁ after s' (.act x k) ∧ steps = before ++ after := by
  rcases bind_act (p := p) (f := Routine.proceed f) h with hin | ⟨r, s₁, before, after, hp, hf, rfl⟩
  · exact Or.inl hin
  · cases r with
    | ok a => exact Or.inr ⟨a, s₁, before, after, hp, hf, rfl⟩
    | error e => cases hf.of_done.2.2

/-- A sequence of routines that ends. -/
theorem andThen_done {p : Routine Act Res ε α} {f : α → Routine Act Res ε β} {r : Except ε β}
    (h : Trace exec (p >>= f : Routine Act Res ε β) s steps s' (.done r)) :
    (∃ e, r = .error e ∧ Trace exec p s steps s' (.done (.error e))) ∨
      ∃ a s₁ before after, Trace exec p s before s₁ (.done (.ok a)) ∧
        Trace exec (f a) s₁ after s' (.done r) ∧ steps = before ++ after := by
  obtain ⟨a, s₁, before, after, hp, hf, rfl⟩ := bind_done (p := p) (f := Routine.proceed f) h
  cases a with
  | ok a => exact Or.inr ⟨a, s₁, before, after, hp, hf, rfl⟩
  | error e =>
      obtain ⟨rfl, rfl, hr⟩ := hf.of_done
      rw [List.append_nil]
      exact Or.inl ⟨e, Prog.done.inj hr, hp⟩

/-- A part without the action at which a trace stops is behind it. -/
theorem skip {φ : Act → Prop} {p : Routine Act Res ε α} {f : α → Routine Act Res ε β}
    {k : Res x → Prog Act Res (Except ε β)}
    (h : Trace exec (p >>= f : Routine Act Res ε β) s steps s' (.act x k)) (hp : All φ p)
    (hx : ¬ φ x) : ∃ a s₁ before after, Trace exec p s before s₁ (.done (.ok a)) ∧
      Trace exec (f a) s₁ after s' (.act x k) ∧ steps = before ++ after := by
  rcases andThen_act h with ⟨k₁, hin⟩ | hrest
  · exact absurd (hp.path hin.path) hx
  · exact hrest

/-- A single action that is answered. -/
theorem perform_done {x : Act} {r : Res x}
    (h : Trace exec (Prog.perform x) s steps s' (.done r)) :
    exec s x r s' ∧ steps = [⟨x, r⟩] := by
  obtain ⟨r', s₁, rest, hx, rfl, hdone⟩ := act_done h
  obtain ⟨rfl, rfl, hr⟩ := hdone.of_done
  obtain rfl := Prog.done.inj hr
  exact ⟨hx, rfl⟩

end Trace

/-- What the program comes to when `f` answers its actions. -/
def eval (f : σ → (x : Act) → Option (Res x × σ)) : Prog Act Res α → σ → Option (σ × α)
  | .done a, s => some (s, a)
  | .act x k, s => (f s x).bind fun r => eval f (k r.1) r.2

/-- An evaluation is a trace. -/
theorem eval_trace {f : σ → (x : Act) → Option (Res x × σ)} {p : Prog Act Res α} {s s' : σ}
    {a : α} (h : eval f p s = some (s', a)) :
    ∃ steps, Trace (fun s x r s' => f s x = some (r, s')) p s steps s' (.done a) := by
  induction p generalizing s with
  | done b =>
      obtain ⟨rfl, rfl⟩ := Prod.mk.inj (Option.some.inj h)
      exact ⟨[], .nil _ _⟩
  | act x k ih =>
      obtain ⟨⟨r, s₁⟩, hx, hrest⟩ := Option.bind_eq_some_iff.mp h
      obtain ⟨steps, htrace⟩ := ih r hrest
      exact ⟨⟨x, r⟩ :: steps, .cons hx htrace⟩

end Prog

/-! ## Threads -/

namespace Machine

variable (M : Machine σ Act Res ι ρ ω η)

/-- `x` is answered with `r` after the state moved along `later`. -/
def Interleaved (later : σ → σ → Prop) (s : σ) (x : Act) (r : Res x) (s' : σ) : Prop :=
  ∃ s₁, later s s₁ ∧ M.Exec s₁ x r s'

/-- **Traces.** Every thread is on a trace of its program. Between two actions the state moves
along `later`, as every step of a reachable pool does, to a state that satisfies what holds of
every reachable pool. -/
theorem trace_states {init : σ → Prop} {cond : σ → Act → Prop} {later : σ → σ → Prop}
    {P : σ → Prop} (hP : (M.system init cond).Invariant fun p => P p.state)
    (hrefl : ∀ s, later s s) (htrans : ∀ {a b c}, later a b → later b c → later a c)
    (hstep : ∀ p c p', (M.system init cond).Reachable p → (M.system init cond).step p c p' →
      later p.state p'.state) :
    (M.system init cond).Invariant fun p => ∀ th ∈ p.threads, ∃ s steps, (M.prog th.tag).Trace
      (fun s x r s' => ∃ s₁, later s s₁ ∧ P s₁ ∧ M.Exec s₁ x r s') th.birth steps s th.rest ∧
        later s p.state := by
  refine TSys.Inductive.invariant ⟨?_, ?_⟩
  · rintro p ⟨_, hnone⟩ th hth
    rw [hnone] at hth
    cases hth
  · rintro p c p' hr hp hnext th hth
    rcases thread_cases hnext.1 hth with hold | ⟨hspawned, hbirth⟩ | ⟨x, k, r, hold, hrest, hexec⟩
    · obtain ⟨s, steps, htrace, hlater⟩ := hp th hold
      exact ⟨s, steps, htrace, htrans hlater (hstep p c p' hr hnext)⟩
    · exact ⟨th.birth, [], hspawned ▸ .nil _ _, hbirth ▸ hrefl _⟩
    · obtain ⟨s, steps, htrace, hlater⟩ := hp _ hold
      have hx := htrace.snoc ⟨p.state, hlater, hP p hr, hexec⟩
      exact ⟨p'.state, _, hrest ▸ hx, hrefl _⟩

/-- Every thread is on a trace of its program, interleaved with the moves of others. -/
theorem trace_invariant {init : σ → Prop} {cond : σ → Act → Prop} {later : σ → σ → Prop}
    (hrefl : ∀ s, later s s) (htrans : ∀ {a b c}, later a b → later b c → later a c)
    (hstep : ∀ p c p', (M.system init cond).step p c p' → later p.state p'.state) :
    (M.system init cond).Invariant fun p => ∀ th ∈ p.threads, ∃ s steps,
      (M.prog th.tag).Trace (M.Interleaved later) th.birth steps s th.rest ∧
        later s p.state := by
  intro p hp th hth
  have hstates := M.trace_states (P := fun _ => True) (fun _ _ => trivial) hrefl htrans
    (fun p c p' _ h => hstep p c p' h) p hp th hth
  obtain ⟨s, steps, htrace, hlater⟩ := hstates
  exact ⟨s, steps, htrace.mono fun _ _ _ _ ⟨s₁, hl, _, hx⟩ => ⟨s₁, hl, hx⟩, hlater⟩

/-! ## Under a discipline -/

section Discipline

variable {M : Machine σ Act Res ι ρ ω η} {D : Discipline σ Act}

/-- A program whose actions are allowed in every state is safe. -/
theorem Safe.of_all {φ : Act → Prop} (hφ : ∀ s x, D.inv s → φ x → D.allowed s x)
    {p : Prog Act Res α} (hp : Prog.All φ p) (s : σ) : Safe M D (fun _ _ => True) p s := by
  induction p generalizing s with
  | done a => exact fun _ _ _ => trivial
  | act x k ih => exact fun s₁ _ hi _ => ⟨hφ s₁ x hi hp.1, fun r s₂ _ _ _ => ih r (hp.2 r) s₂⟩

/-- Every thread is on a trace of its program, each action in a state that satisfies the
invariant. -/
theorem Respects.traces {post : ι → σ → ρ → σ → Prop} {init : σ → Prop}
    (h : Respects M D post) (hinit : ∀ s, init s → D.inv s) :
    (M.system init D.cond).Invariant fun p => ∀ th ∈ p.threads, ∃ s steps,
      (M.prog th.tag).Trace (fun s x r s' => ∃ s₁, D.later s s₁ ∧ D.inv s₁ ∧ M.Exec s₁ x r s')
        th.birth steps s th.rest ∧ D.later s p.state :=
  M.trace_states (fun _ hp => h.inv hinit hp) D.refl D.trans fun _ _ _ hr hstep =>
    h.later hinit hr hstep

end Discipline

/-! ## Restricted answers -/

/-- The machine with the answers that meet `ok`. -/
def restrict (ok : (x : Act) → Res x → Bool) : Machine σ Act Res ι ρ ω η :=
  { M with perform := fun s x o => (M.perform s x o).filter fun r => ok x r.1 }

variable {M} {ok : (x : Act) → Res x → Bool}

theorem restrict_exec {s s' : σ} {x : Act} {r : Res x} (h : (M.restrict ok).Exec s x r s') :
    M.Exec s x r s' ∧ ok x r = true := by
  obtain ⟨o, ho⟩ := h
  obtain ⟨hperform, hok⟩ := Option.filter_eq_some_iff.mp ho
  exact ⟨⟨o, hperform⟩, hok⟩

theorem restrict_next {p p' : Pool σ Act Res ι ρ} {c : Cmd ι ω η}
    (h : (M.restrict ok).next p c = some p') : M.next p c = some p' := by
  cases c with
  | act n o =>
      simp only [next] at h ⊢
      split at h
      · obtain ⟨r, hperform, rfl⟩ := Option.map_eq_some_iff.mp h
        rw [(Option.filter_eq_some_iff.mp hperform).1]
        rfl
      · cases h
  | _ => exact h

/-- **Restriction.** Its runs are runs of the machine. -/
theorem restrict_reachable {init : σ → Prop} {p : Pool σ Act Res ι ρ}
    (h : ((M.restrict ok).system init fun _ _ => True).Reachable p) :
    (M.system init fun _ _ => True).Reachable p :=
  TSys.Reachable.mono (T := (M.restrict ok).system init fun _ _ => True)
    (U := M.system init fun _ _ => True) (fun _ hi => hi)
    (fun _ _ _ hstep => ⟨restrict_next hstep.1, fun _ _ => trivial⟩) h

end Machine

end Logic
