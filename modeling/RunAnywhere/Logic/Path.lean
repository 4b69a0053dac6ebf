import RunAnywhere.Logic.Prog

/-!
# Paths of programs

What a program does whatever the answers to its actions:

* **paths** — `Prog.Path` lists the actions performed with their answers; every thread of a
  reachable pool is on a path of its program, by steps that were made on the way to the pool
  (`Machine.performed_invariant`);
* **actions** — `Prog.All φ`: every action of the program satisfies `φ`;
* **histories** — `Prog.Along φ Q`: every action satisfies `φ` given the steps before it, and
  every end satisfies `Q`. A part whose actions are of one kind keeps what such steps keep
  (`Prog.All.along`);
* **ends** — `Prog.Fails φ E`: with answers that satisfy `φ` a routine fails only with errors
  in `E`.
-/

namespace Logic

variable {σ Act : Type} {Res : Act → Type} {ι ρ ω η α β ε ε' : Type}

namespace Prog

/-- The program performs `steps`, with these answers, and comes to `q`. -/
inductive Path : Prog Act Res α → List (Σ x, Res x) → Prog Act Res α → Prop
  | nil (p) : Path p [] p
  | cons {x k r steps q} : Path (k r) steps q → Path (.act x k) (⟨x, r⟩ :: steps) q

/-- One more step. -/
theorem Path.snoc {p : Prog Act Res α} {steps : List (Σ x, Res x)} {x : Act}
    {k : Res x → Prog Act Res α} (h : Path p steps (.act x k)) (r : Res x) :
    Path p (steps ++ [⟨x, r⟩]) (k r) := by
  generalize hq : Prog.act x k = q at h
  induction h with
  | nil =>
      subst hq
      exact .cons (.nil _)
  | cons _ ih => exact .cons (ih hq)

/-! ## Actions -/

/-- Every action of the program satisfies `φ`. -/
def All (φ : Act → Prop) : Prog Act Res α → Prop
  | .done _ => True
  | .act x k => φ x ∧ ∀ r, All φ (k r)

namespace All

variable {φ ψ : Act → Prop}

theorem mono (h : ∀ x, ψ x → φ x) {p : Prog Act Res α} (hp : All ψ p) : All φ p := by
  induction p with
  | done a => trivial
  | act x k ih => exact ⟨h x hp.1, fun r => ih r (hp.2 r)⟩

theorem always (p : Prog Act Res α) : All (fun _ => True) p := by
  induction p with
  | done a => trivial
  | act x k ih => exact ⟨trivial, ih⟩

theorem perform {x : Act} (h : φ x) : All φ (Prog.perform x : Prog Act Res (Res x)) :=
  ⟨h, fun _ => trivial⟩

theorem bind {p : Prog Act Res α} {f : α → Prog Act Res β} (hp : All φ p)
    (hf : ∀ a, All φ (f a)) : All φ (p >>= f) := by
  induction p with
  | done a => exact hf a
  | act x k ih => exact ⟨hp.1, fun r => ih r (hp.2 r)⟩

/-- Sequencing of routines. -/
theorem andThen {p : Routine Act Res ε α} {f : α → Routine Act Res ε β} (hp : All φ p)
    (hf : ∀ a, All φ (f a)) : All φ (p >>= f : Routine Act Res ε β) := by
  refine bind (f := Routine.proceed f) hp fun r => ?_
  cases r with
  | ok a => exact hf a
  | error e => trivial

theorem lift {p : Prog Act Res α} (hp : All φ p) :
    All φ (Routine.lift p : Routine Act Res ε α) :=
  bind hp fun _ => trivial

theorem try_ {p : Prog Act Res (Except ε' α)} {f : ε' → ε} (hp : All φ p) :
    All φ (Routine.try_ p f) :=
  bind hp fun _ => trivial

theorem attempt {p : Routine Act Res ε' α} (hp : All φ p) :
    All φ (p.attempt : Routine Act Res ε (Except ε' α)) :=
  bind hp fun _ => trivial

/-- The action a path comes to. -/
theorem path {p : Prog Act Res α} {steps : List (Σ x, Res x)} {x : Act}
    {k : Res x → Prog Act Res α} (hp : All φ p) (h : Path p steps (.act x k)) : φ x := by
  generalize hq : Prog.act x k = q at h
  induction h with
  | nil =>
      subst hq
      exact hp.1
  | cons _ ih => exact ih (hp.2 _) hq

/-- The steps of a path. -/
theorem steps {p q : Prog Act Res α} {steps : List (Σ x, Res x)} (hp : All φ p)
    (h : Path p steps q) : ∀ step ∈ steps, φ step.1 := by
  induction h with
  | nil => exact fun step hs => nomatch hs
  | cons _ ih =>
      intro step hs
      rcases List.mem_cons.mp hs with rfl | hrest
      · exact hp.1
      · exact ih (hp.2 _) step hrest

end All

/-! ## Histories -/

/-- On every path after `past`, each action satisfies `φ`, given the steps before it, and
the end satisfies `Q`. -/
def Along (φ : List (Σ x, Res x) → Act → Prop) (Q : α → List (Σ x, Res x) → Prop) :
    Prog Act Res α → List (Σ x, Res x) → Prop
  | .done a, past => Q a past
  | .act x k, past => φ past x ∧ ∀ r, Along φ Q (k r) (past ++ [⟨x, r⟩])

variable {φ : List (Σ x, Res x) → Act → Prop} {past steps : List (Σ x, Res x)}

/-- **Paths.** -/
theorem Along.path {Q : α → List (Σ x, Res x) → Prop} {p : Prog Act Res α} {x : Act}
    {k : Res x → Prog Act Res α} (hp : Along φ Q p past) (h : Path p steps (.act x k)) :
    φ (past ++ steps) x := by
  generalize hq : Prog.act x k = q at h
  induction h generalizing past with
  | nil =>
      subst hq
      rw [List.append_nil]
      exact hp.1
  | @cons x' k' r steps q _ ih =>
      have htail := ih (hp.2 r) hq
      rwa [List.append_assoc] at htail

/-- **Ends.** -/
theorem Along.ends {Q : α → List (Σ x, Res x) → Prop} {p : Prog Act Res α} {a : α}
    (hp : Along φ Q p past) (h : Path p steps (.done a)) : Q a (past ++ steps) := by
  generalize hq : Prog.done a = q at h
  induction h generalizing past with
  | nil =>
      subst hq
      rw [List.append_nil]
      exact hp
  | @cons x' k' r steps q _ ih =>
      have htail := ih (hp.2 r) hq
      rwa [List.append_assoc] at htail

theorem Along.mono {Q Q' : α → List (Σ x, Res x) → Prop} (hQ : ∀ a past, Q a past → Q' a past)
    {p : Prog Act Res α} (hp : Along φ Q p past) : Along φ Q' p past := by
  induction p generalizing past with
  | done a => exact hQ a past hp
  | act x k ih => exact ⟨hp.1, fun r => ih r (hp.2 r)⟩

/-- **Action.** -/
theorem Along.perform {Q : β → List (Σ x, Res x) → Prop} {x : Act}
    {f : Res x → Prog Act Res β} (hx : φ past x)
    (h : ∀ r, Along φ Q (f r) (past ++ [⟨x, r⟩])) : Along φ Q (Prog.perform x >>= f) past :=
  ⟨hx, h⟩

theorem Along.bind {Q : β → List (Σ x, Res x) → Prop} {p : Prog Act Res α}
    {f : α → Prog Act Res β} (hp : Along φ (fun a past => Along φ Q (f a) past) p past) :
    Along φ Q (p >>= f) past := by
  induction p generalizing past with
  | done a => exact hp
  | act x k ih => exact ⟨hp.1, fun r => ih r (hp.2 r)⟩

/-- Sequencing of routines. -/
theorem Along.andThen {Q : Except ε β → List (Σ x, Res x) → Prop} {p : Routine Act Res ε α}
    {f : α → Routine Act Res ε β} (hp : Along φ (fun r past => match r with
      | .ok a => Along φ Q (f a) past
      | .error e => Q (.error e) past) p past) :
    Along φ Q (p >>= f : Routine Act Res ε β) past := by
  refine Along.bind (p := p) (f := Routine.proceed f) ?_
  refine cast ?_ hp
  congr 1
  funext r past
  cases r <;> rfl

theorem Along.lift {Q : Except ε α → List (Σ x, Res x) → Prop} {p : Prog Act Res α}
    (hp : Along φ (fun a past => Q (.ok a) past) p past) :
    Along φ Q (Routine.lift p : Routine Act Res ε α) past :=
  Along.bind hp

theorem Along.try_ {Q : Except ε α → List (Σ x, Res x) → Prop} {p : Prog Act Res (Except ε' α)}
    {f : ε' → ε} (hp : Along φ (fun r past => Q (r.mapError f) past) p past) :
    Along φ Q (Routine.try_ p f) past :=
  Along.bind hp

theorem Along.attempt {Q : Except ε (Except ε' α) → List (Σ x, Res x) → Prop}
    {p : Routine Act Res ε' α} (hp : Along φ (fun r past => Q (.ok r) past) p past) :
    Along φ Q (p.attempt : Routine Act Res ε (Except ε' α)) past :=
  Along.bind hp

/-- **Parts of one kind.** What the steps of the part keep holds at each of its actions
and at its end. -/
theorem All.along {ψ : Act → Prop} {Q : α → List (Σ x, Res x) → Prop} {p : Prog Act Res α}
    (hp : All ψ p) (R : List (Σ x, Res x) → Prop)
    (hstep : ∀ past x r, R past → ψ x → R (past ++ [⟨x, r⟩]))
    (haction : ∀ past x, R past → ψ x → φ past x) (hend : ∀ past a, R past → Q a past)
    (hpast : R past) : Along φ Q p past := by
  induction p generalizing past with
  | done a => exact hend past a hpast
  | act x k ih =>
      exact ⟨haction past x hpast hp.1, fun r => ih r (hp.2 r) (hstep past x r hpast hp.1)⟩

/-! ## Ends -/

/-- Every end that is reached by answers in `φ` satisfies `Q`. -/
def Ends (φ : (x : Act) → Res x → Prop) (Q : α → Prop) : Prog Act Res α → Prop
  | .done a => Q a
  | .act x k => ∀ r, φ x r → Ends φ Q (k r)

/-- With answers in `φ` the routine fails only with errors in `E`. -/
def Fails (φ : (x : Act) → Res x → Prop) (E : ε → Prop) (p : Routine Act Res ε α) : Prop :=
  Ends φ (fun r => ∀ e, r = .error e → E e) p

section Ends

variable {φ : (x : Act) → Res x → Prop} {Q : α → Prop} {E : ε → Prop}

theorem Ends.mono {Q' : α → Prop} {p : Prog Act Res α} (hp : Ends φ Q p) (h : ∀ a, Q a → Q' a) :
    Ends φ Q' p := by
  induction p with
  | done a => exact h a hp
  | act x k ih => exact fun r hr => ih r (hp r hr)

/-- With fewer answers. -/
theorem Ends.anti {ψ : (x : Act) → Res x → Prop} {p : Prog Act Res α}
    (h : ∀ x r, ψ x r → φ x r) (hp : Ends φ Q p) : Ends ψ Q p := by
  induction p with
  | done a => exact hp
  | act x k ih => exact fun r hr => ih r (hp r (h x r hr))

theorem Ends.trivial (p : Prog Act Res α) : Ends φ (fun _ => True) p := by
  induction p with
  | done a => exact True.intro
  | act x k ih => exact fun r _ => ih r

theorem Ends.bind {P : α → Prop} {Q : β → Prop} {p : Prog Act Res α} {f : α → Prog Act Res β}
    (hp : Ends φ P p) (hf : ∀ a, P a → Ends φ Q (f a)) : Ends φ Q (p >>= f) := by
  induction p with
  | done a => exact hf a hp
  | act x k ih => exact fun r hr => ih r (hp r hr)

namespace Fails

theorem pure (a : α) : Fails φ E (Pure.pure a : Routine Act Res ε α) := fun _ h => nomatch h

/-- Sequencing. -/
theorem andThen {p : Routine Act Res ε α} {f : α → Routine Act Res ε β} (hp : Fails φ E p)
    (hf : ∀ a, Fails φ E (f a)) : Fails φ E (p >>= f : Routine Act Res ε β) := by
  refine Ends.bind (p := p) (f := Routine.proceed f) hp fun r hr => ?_
  cases r with
  | ok a => exact hf a
  | error e =>
      intro e' h
      obtain rfl := Except.error.inj h
      exact hr e rfl

theorem lift (p : Prog Act Res α) : Fails φ E (Routine.lift p : Routine Act Res ε α) :=
  Ends.bind (Ends.trivial p) fun _ _ _ h => nomatch h

theorem attempt (p : Routine Act Res ε' α) :
    Fails φ E (p.attempt : Routine Act Res ε (Except ε' α)) :=
  Ends.bind (Ends.trivial p) fun _ _ _ h => nomatch h

/-- After a part that does not fail. -/
theorem ends {Q : Except ε β → Prop} {p : Routine Act Res ε α} {f : α → Routine Act Res ε β}
    (hp : Fails φ (fun _ : ε => False) p) (hf : ∀ a, Ends φ Q (f a)) :
    Ends φ Q (p >>= f : Routine Act Res ε β) := by
  refine Ends.bind (p := p) (f := Routine.proceed f) hp fun r hr => ?_
  cases r with
  | ok a => exact hf a
  | error e => exact absurd rfl (hr e)

/-- The errors of a part, as the caller reports them. -/
theorem try_ {p : Prog Act Res (Except ε' α)} {f : ε' → ε}
    (hp : Ends φ (fun r => ∀ e, r = .error e → E (f e)) p) : Fails φ E (Routine.try_ p f) := by
  refine Ends.bind hp fun r hr e h => ?_
  cases r with
  | ok a => cases h
  | error e' =>
      obtain rfl := Except.error.inj h
      exact hr e' rfl

/-- Every error of the part is one the caller may report. -/
theorem try_of (p : Prog Act Res (Except ε' α)) {f : ε' → ε} (h : ∀ e, E (f e)) :
    Fails φ E (Routine.try_ p f) :=
  try_ ((Ends.trivial p).mono fun _ _ e _ => h e)

end Fails

end Ends

end Prog

/-! ## Threads -/

namespace Machine

variable (M : Machine σ Act Res ι ρ ω η)

variable (init : σ → Prop) (cond : σ → Act → Prop)

/-- The step was made on the way to pool `p`. -/
def Performed (p : Pool σ Act Res ι ρ) (step : Σ x, Res x) : Prop :=
  ∃ q cs s', (M.system init cond).Reachable q ∧ (M.system init cond).Run q cs p ∧
    M.Exec q.state step.1 step.2 s'

variable {M init cond} in
/-- A step made stays made. -/
theorem Performed.later {p p' : Pool σ Act Res ι ρ} {step : Σ x, Res x} {c : Cmd ι ω η}
    (h : M.Performed init cond p step) (hstep : (M.system init cond).step p c p') :
    M.Performed init cond p' step := by
  obtain ⟨q, cs, s', hq, hrun, hexec⟩ := h
  exact ⟨q, cs ++ [c], s', hq, .snoc hrun hstep, hexec⟩

variable {M} in
/-- A thread after a command was there before, was just spawned, or performed an action. -/
theorem thread_cases {p p' : Pool σ Act Res ι ρ} {c : Cmd ι ω η} (h : M.next p c = some p')
    {th : Thread σ Act Res ι ρ} (hth : th ∈ p'.threads) :
    th ∈ p.threads ∨ (th.rest = M.prog th.tag ∧ th.birth = p'.state) ∨
      ∃ x k r, ⟨th.tag, th.birth, .act x k⟩ ∈ p.threads ∧ th.rest = k r ∧
        M.Exec p.state x r p'.state := by
  cases c with
  | spawn i =>
      simp only [next] at h
      split at h
      · obtain rfl := Option.some.inj h
        rcases List.mem_append.mp hth with hmem | hnew
        · exact Or.inl hmem
        · obtain rfl := List.mem_singleton.mp hnew
          exact Or.inr (Or.inl ⟨rfl, rfl⟩)
      · cases h
  | act n o =>
      simp only [next] at h
      split at h
      · next i b x k hrest =>
          obtain ⟨⟨r, s'⟩, hexec, rfl⟩ := Option.map_eq_some_iff.mp h
          rcases List.mem_or_eq_of_mem_set hth with hmem | rfl
          · exact Or.inl hmem
          · exact Or.inr (Or.inr ⟨x, k, r, List.mem_of_getElem? hrest, rfl, o, hexec⟩)
      · cases h
  | finish n =>
      simp only [next] at h
      split at h
      · obtain rfl := Option.some.inj h
        exact Or.inl (List.mem_of_mem_eraseIdx hth)
      · cases h
  | kill n =>
      obtain rfl := Option.some.inj h
      exact Or.inl (List.mem_of_mem_eraseIdx hth)
  | env e =>
      obtain ⟨s', _, rfl⟩ := Option.map_eq_some_iff.mp h
      exact Or.inl hth
  | crash =>
      obtain rfl := Option.some.inj h
      exact Or.inl (List.mem_filter.mp hth).1

variable {M} in
/-- An action of a thread. -/
theorem next_act {p p' : Pool σ Act Res ι ρ} {n : Nat} {o : ω}
    (h : M.next p (.act n o) = some p') :
    ∃ i b x k r, p.threads[n]? = some ⟨i, b, .act x k⟩ ∧
      M.perform p.state x o = some (r, p'.state) ∧ p'.threads = p.threads.set n ⟨i, b, k r⟩ := by
  simp only [next] at h
  split at h
  · next i b x k hth =>
      obtain ⟨⟨r, s'⟩, hperform, rfl⟩ := Option.map_eq_some_iff.mp h
      exact ⟨i, b, x, k, r, hth, hperform, rfl⟩
  · cases h

/-- **Paths.** Every thread is on a path of its program, by steps that were made. -/
theorem performed_invariant :
    (M.system init cond).Invariant fun p => ∀ th ∈ p.threads,
      ∃ steps, (M.prog th.tag).Path steps th.rest ∧
        ∀ step ∈ steps, M.Performed init cond p step := by
  refine TSys.Inductive.invariant ⟨?_, ?_⟩
  · rintro p ⟨_, hnone⟩ th hth
    rw [hnone] at hth
    cases hth
  · rintro p c p' hr hp hstep th hth
    rcases thread_cases hstep.1 hth with hold | ⟨hspawned, _⟩ | ⟨x, k, r, hold, hrest, hexec⟩
    · obtain ⟨steps, hpath, hmade⟩ := hp th hold
      exact ⟨steps, hpath, fun step hs => (hmade step hs).later hstep⟩
    · exact ⟨[], hspawned ▸ .nil _, nofun⟩
    · obtain ⟨steps, hpath, hmade⟩ := hp _ hold
      refine ⟨_, hrest ▸ hpath.snoc r, fun step hs => ?_⟩
      rcases List.mem_append.mp hs with hmem | hlast
      · exact (hmade step hmem).later hstep
      · obtain rfl := List.mem_singleton.mp hlast
        exact ⟨p, [c], p'.state, hr, .single hstep, hexec⟩

/-- Every thread is on a path of its program. -/
theorem path_invariant :
    (M.system init cond).Invariant fun p => ∀ th ∈ p.threads,
      ∃ steps, (M.prog th.tag).Path steps th.rest := by
  intro p hp th hth
  obtain ⟨steps, hpath, _⟩ := M.performed_invariant init cond p hp th hth
  exact ⟨steps, hpath⟩

end Machine

end Logic
