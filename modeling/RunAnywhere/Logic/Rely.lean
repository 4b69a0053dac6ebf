import RunAnywhere.Logic.Prog

/-!
# Rely and guarantee for pools of programs

A `Discipline` fixes what all threads of a machine share: an invariant of the
state, a preorder `later` that every step moves along (what a thread may rely on
between two of its actions) and the actions a thread may perform in a state. A
program is `Safe` when, however the state moves along `later` in between, it
performs allowed actions only and ends in its postcondition.

* **the rule** — `Respects.invariant`: if the programs are safe where they are
  spawned, the invariant holds in every reachable pool, every action performed is
  allowed (`Respects.allowed`) and every thread that ends meets its postcondition
  (`Respects.finished`);
* **triples** — safety proofs are sequences of `Triple`s whose assertions are
  stable along `later`: one rule for an action, one for sequencing.
-/

namespace Logic

/-- What the threads over a shared state keep, rely on and may do. `cond` is assumed
of every action performed. -/
structure Discipline (σ Act : Type) where
  inv : σ → Prop
  later : σ → σ → Prop
  cond : σ → Act → Prop
  allowed : σ → Act → Prop
  refl : ∀ s, later s s
  trans : ∀ {a b c}, later a b → later b c → later a c

/-- An assertion that survives the steps of others. -/
class Discipline.Stable {σ Act : Type} (D : Discipline σ Act) (P : σ → Prop) : Prop where
  later : ∀ s s', D.inv s → D.inv s' → D.later s s' → P s → P s'

namespace Discipline.Stable

variable {σ Act α : Type} {D : Discipline σ Act}

instance const (φ : Prop) : D.Stable fun _ => φ := ⟨fun _ _ _ _ _ h => h⟩

instance and {P Q : σ → Prop} [hP : D.Stable P] [hQ : D.Stable Q] :
    D.Stable fun s => P s ∧ Q s :=
  ⟨fun s s' hi hi' hl h => ⟨hP.later s s' hi hi' hl h.1, hQ.later s s' hi hi' hl h.2⟩⟩

instance exist {P : α → σ → Prop} [hP : ∀ a, D.Stable (P a)] : D.Stable fun s => ∃ a, P a s :=
  ⟨fun s s' hi hi' hl ⟨a, ha⟩ => ⟨a, (hP a).later s s' hi hi' hl ha⟩⟩

instance all {ι : Sort*} {P : ι → σ → Prop} [hP : ∀ i, D.Stable (P i)] :
    D.Stable fun s => ∀ i, P i s :=
  ⟨fun s s' hi hi' hl h i => (hP i).later s s' hi hi' hl (h i)⟩

end Discipline.Stable

namespace Machine

variable {σ Act : Type} {Res : Act → Type} {ι ρ ω η α β ε ε' : Type}
  {M : Machine σ Act Res ι ρ ω η} {D : Discipline σ Act}

variable (M D) in
/-- Whatever the others do, the program performs allowed actions and ends in `Q`. -/
def Safe (Q : α → σ → Prop) : Prog Act Res α → σ → Prop
  | .done a, s => ∀ s₁, D.later s s₁ → D.inv s₁ → Q a s₁
  | .act x k, s => ∀ s₁, D.later s s₁ → D.inv s₁ → D.cond s₁ x →
      D.allowed s₁ x ∧ ∀ r s₂, M.Exec s₁ x r s₂ → D.inv s₂ → D.later s₁ s₂ → Safe Q (k r) s₂

/-- Safety survives the steps of others. -/
theorem Safe.later {Q : α → σ → Prop} {p : Prog Act Res α} {s s' : σ} (h : Safe M D Q p s)
    (hl : D.later s s') : Safe M D Q p s' := by
  cases p with
  | done a => exact fun s₁ h₁ => h s₁ (D.trans hl h₁)
  | act x k => exact fun s₁ h₁ => h s₁ (D.trans hl h₁)

theorem Safe.mono {Q Q' : α → σ → Prop} (hQ : ∀ a s, D.inv s → Q a s → Q' a s)
    {p : Prog Act Res α} {s : σ} (h : Safe M D Q p s) : Safe M D Q' p s := by
  induction p generalizing s with
  | done a => exact fun s₁ h₁ hi => hQ a s₁ hi (h s₁ h₁ hi)
  | act x k ih =>
      intro s₁ h₁ hi hc
      obtain ⟨ha, hk⟩ := h s₁ h₁ hi hc
      exact ⟨ha, fun r s₂ he hi₂ hl => ih r (hk r s₂ he hi₂ hl)⟩

theorem Safe.bind {Q : β → σ → Prop} {p : Prog Act Res α} {f : α → Prog Act Res β} {s : σ}
    (hs : D.inv s) (h : Safe M D (fun a s => Safe M D Q (f a) s) p s) :
    Safe M D Q (p.bind f) s := by
  induction p generalizing s with
  | done a => exact h s (D.refl s) hs
  | act x k ih =>
      intro s₁ h₁ hi hc
      obtain ⟨ha, hk⟩ := h s₁ h₁ hi hc
      exact ⟨ha, fun r s₂ he hi₂ hl => ih r hi₂ (hk r s₂ he hi₂ hl)⟩

/-! ## The rule -/

variable (M D) in
/-- The machine keeps to the discipline: allowed actions, the environment and
crashes keep the invariant and move along `later`, and each program is safe where it
may be spawned. -/
structure Respects (post : ι → σ → ρ → σ → Prop) : Prop where
  act : ∀ s x r s', D.inv s → D.cond s x → D.allowed s x → M.Exec s x r s' →
    D.inv s' ∧ D.later s s'
  env : ∀ s e s', D.inv s → M.env s e = some s' → D.inv s' ∧ D.later s s'
  crash : ∀ s, D.inv s → D.inv (M.crash s) ∧ D.later s (M.crash s)
  spawn : ∀ s i, D.inv s → M.enabled s i = true → Safe M D (post i s) (M.prog i) s

variable {post : ι → σ → ρ → σ → Prop} {init : σ → Prop}

/-- What holds of every reachable pool. -/
def Kept (M : Machine σ Act Res ι ρ ω η) (D : Discipline σ Act) (post : ι → σ → ρ → σ → Prop)
    (p : Pool σ Act Res ι ρ) : Prop :=
  D.inv p.state ∧ ∀ th ∈ p.threads, Safe M D (post th.tag th.birth) th.rest p.state

/-- One action of one thread. -/
theorem Respects.act_step (h : Respects M D post) {p : Pool σ Act Res ι ρ} (hp : Kept M D post p)
    {n : Nat} {i : ι} {b : σ} {x : Act} {k : Res x → Prog Act Res ρ}
    (hth : p.threads[n]? = some ⟨i, b, .act x k⟩) (hcond : D.cond p.state x) :
    D.allowed p.state x ∧ ∀ r s', M.Exec p.state x r s' →
      Kept M D post ⟨s', p.threads.set n ⟨i, b, k r⟩⟩ ∧ D.later p.state s' := by
  obtain ⟨hinv, hall⟩ := hp
  obtain ⟨ha, hk⟩ := hall _ (List.mem_of_getElem? hth) p.state (D.refl _) hinv hcond
  refine ⟨ha, fun r s' he => ?_⟩
  obtain ⟨hinv', hl⟩ := h.act _ _ _ _ hinv hcond ha he
  refine ⟨⟨hinv', fun th hmem => ?_⟩, hl⟩
  rcases List.mem_or_eq_of_mem_set hmem with hold | rfl
  · exact (hall th hold).later hl
  · exact hk r s' he hinv' hl

/-- **Rely and guarantee.** The invariant holds in every reachable pool, and every
thread is safe there. -/
theorem Respects.invariant (h : Respects M D post) (hinit : ∀ s, init s → D.inv s) :
    (M.system init D.cond).Invariant (Kept M D post) := by
  refine TSys.Inductive.invariant ⟨?_, ?_⟩
  · rintro p ⟨hp, hnone⟩
    refine ⟨hinit _ hp, fun th hth => ?_⟩
    rw [hnone] at hth
    cases hth
  · rintro p c p' - hp ⟨hnext, hcond⟩
    cases c with
    | spawn i =>
        simp only [next] at hnext
        split at hnext
        · next hen =>
            obtain rfl := Option.some.inj hnext
            refine ⟨hp.1, fun th hth => ?_⟩
            rcases List.mem_append.mp hth with hold | hnew
            · exact hp.2 th hold
            · obtain rfl := List.mem_singleton.mp hnew
              exact h.spawn _ _ hp.1 hen
        · cases hnext
    | act n o =>
        simp only [next] at hnext
        split at hnext
        · next i b x k hth =>
            obtain ⟨⟨r, s'⟩, hperf, rfl⟩ := Option.map_eq_some_iff.mp hnext
            have hc : D.cond p.state x := hcond x ⟨n, o, rfl, by simp [action?, hth]⟩
            exact ((h.act_step hp hth hc).2 r s' ⟨o, hperf⟩).1
        · cases hnext
    | finish n =>
        simp only [next] at hnext
        split at hnext
        · obtain rfl := Option.some.inj hnext
          exact ⟨hp.1, fun th hth => hp.2 th (List.mem_of_mem_eraseIdx hth)⟩
        · cases hnext
    | kill n =>
        obtain rfl := Option.some.inj hnext
        exact ⟨hp.1, fun th hth => hp.2 th (List.mem_of_mem_eraseIdx hth)⟩
    | env e =>
        obtain ⟨s', he, rfl⟩ := Option.map_eq_some_iff.mp hnext
        obtain ⟨hinv', hl⟩ := h.env _ _ _ hp.1 he
        exact ⟨hinv', fun th hth => (hp.2 th hth).later hl⟩
    | crash =>
        obtain rfl := Option.some.inj hnext
        obtain ⟨hinv', hl⟩ := h.crash _ hp.1
        exact ⟨hinv', fun th hth => (hp.2 th (List.mem_filter.mp hth).1).later hl⟩

/-- The state of a reachable pool satisfies the invariant. -/
theorem Respects.inv (h : Respects M D post) (hinit : ∀ s, init s → D.inv s)
    {p : Pool σ Act Res ι ρ} (hp : (M.system init D.cond).Reachable p) : D.inv p.state :=
  (h.invariant hinit p hp).1

/-- A step relates two states as its action, its move of the environment or its crash does. -/
theorem Respects.relates (h : Respects M D post) (hinit : ∀ s, init s → D.inv s)
    {R : σ → σ → Prop} (hrefl : ∀ s, R s s)
    (hact : ∀ s x r s', D.inv s → D.cond s x → D.allowed s x → M.Exec s x r s' → R s s')
    (henv : ∀ s e s', D.inv s → M.env s e = some s' → R s s')
    (hcrash : ∀ s, D.inv s → R s (M.crash s))
    {p p' : Pool σ Act Res ι ρ} {c : Cmd ι ω η} (hp : (M.system init D.cond).Reachable p)
    (hstep : (M.system init D.cond).step p c p') : R p.state p'.state := by
  have hkept := h.invariant hinit p hp
  obtain ⟨hnext, hcond⟩ := hstep
  cases c with
  | spawn i =>
      simp only [next] at hnext
      split at hnext <;> cases hnext
      exact hrefl _
  | act n o =>
      simp only [next] at hnext
      split at hnext
      · next i b x k hth =>
          obtain ⟨⟨r, s'⟩, hperf, rfl⟩ := Option.map_eq_some_iff.mp hnext
          have hc : D.cond p.state x := hcond x ⟨n, o, rfl, by simp [action?, hth]⟩
          exact hact _ _ _ _ hkept.1 hc (h.act_step hkept hth hc).1 ⟨o, hperf⟩
      · cases hnext
  | finish n =>
      simp only [next] at hnext
      split at hnext <;> cases hnext
      exact hrefl _
  | kill n =>
      obtain rfl := Option.some.inj hnext
      exact hrefl _
  | env e =>
      obtain ⟨s', he, rfl⟩ := Option.map_eq_some_iff.mp hnext
      exact henv _ _ _ hkept.1 he
  | crash =>
      obtain rfl := Option.some.inj hnext
      exact hcrash _ hkept.1

/-- Every step moves along `later`. -/
theorem Respects.later (h : Respects M D post) (hinit : ∀ s, init s → D.inv s)
    {p p' : Pool σ Act Res ι ρ} {c : Cmd ι ω η} (hp : (M.system init D.cond).Reachable p)
    (hstep : (M.system init D.cond).step p c p') : D.later p.state p'.state :=
  h.relates hinit D.refl (fun _ _ _ _ hi hc ha he => (h.act _ _ _ _ hi hc ha he).2)
    (fun _ _ _ hi he => (h.env _ _ _ hi he).2) (fun _ hi => (h.crash _ hi).2) hp hstep

/-- So does every run. -/
theorem Respects.run_later (h : Respects M D post) (hinit : ∀ s, init s → D.inv s)
    {p p' : Pool σ Act Res ι ρ} {cs : List (Cmd ι ω η)} (hp : (M.system init D.cond).Reachable p)
    (hrun : (M.system init D.cond).Run p cs p') : D.later p.state p'.state := by
  refine hrun.preserves (P := fun q => D.later p.state q.state) ?_ hp (D.refl _)
  intro q c q' hq hl hstep
  exact D.trans hl (h.later hinit hq hstep)

/-- What a thread is about to do is allowed. -/
theorem Respects.allowed (h : Respects M D post) (hinit : ∀ s, init s → D.inv s)
    {p : Pool σ Act Res ι ρ} {th : Thread σ Act Res ι ρ} {x : Act} {k : Res x → Prog Act Res ρ}
    (hp : (M.system init D.cond).Reachable p) (hth : th ∈ p.threads) (hrest : th.rest = .act x k)
    (hcond : D.cond p.state x) : D.allowed p.state x := by
  obtain ⟨hinv, hall⟩ := h.invariant hinit p hp
  have hsafe := hall th hth
  rw [hrest] at hsafe
  exact (hsafe p.state (D.refl _) hinv hcond).1

/-- Every thread that ends meets its postcondition. -/
theorem Respects.finished (h : Respects M D post) (hinit : ∀ s, init s → D.inv s)
    {p : Pool σ Act Res ι ρ} {th : Thread σ Act Res ι ρ} {a : ρ}
    (hp : (M.system init D.cond).Reachable p) (hth : th ∈ p.threads) (hrest : th.rest = .done a) :
    post th.tag th.birth a p.state := by
  obtain ⟨hinv, hall⟩ := h.invariant hinit p hp
  have hsafe := hall th hth
  rw [hrest] at hsafe
  exact hsafe p.state (D.refl _) hinv

/-! ## Triples -/

/-- **Frame.** A stable assertion is kept by every program. -/
theorem Safe.frame {P : σ → Prop} [hP : D.Stable P] {Q : α → σ → Prop} {p : Prog Act Res α}
    {s : σ} (hi : D.inv s) (hs : P s) (h : Safe M D Q p s) :
    Safe M D (fun a s => P s ∧ Q a s) p s := by
  induction p generalizing s with
  | done a => exact fun s₁ h₁ hi₁ => ⟨hP.later s s₁ hi hi₁ h₁ hs, h s₁ h₁ hi₁⟩
  | act x k ih =>
      intro s₁ h₁ hi₁ hc
      obtain ⟨ha, hk⟩ := h s₁ h₁ hi₁ hc
      refine ⟨ha, fun r s₂ he hi₂ hl => ih r hi₂ ?_ (hk r s₂ he hi₂ hl)⟩
      exact hP.later s s₂ hi hi₂ (D.trans h₁ hl) hs

variable (M D) in
/-- From `P`, the program is safe and ends in `Q`. -/
def Triple (P : σ → Prop) (p : Prog Act Res α) (Q : α → σ → Prop) : Prop :=
  ∀ s, D.inv s → P s → Safe M D Q p s

section Rules

variable {P P' : σ → Prop} {R : α → σ → Prop} {Q Q' : β → σ → Prop}

theorem Triple.conseq {p : Prog Act Res β} (h : Triple M D P p Q)
    (hP : ∀ s, D.inv s → P' s → P s) (hQ : ∀ a s, D.inv s → Q a s → Q' a s) :
    Triple M D P' p Q' :=
  fun s hi hp => (h s hi (hP s hi hp)).mono hQ

theorem Triple.pre {p : Prog Act Res β} (h : Triple M D P p Q)
    (hP : ∀ s, D.inv s → P' s → P s) : Triple M D P' p Q :=
  fun s hi hp => h s hi (hP s hi hp)

theorem Triple.done {a : β} [hP : D.Stable P] (h : ∀ s, D.inv s → P s → Q a s) :
    Triple M D P (.done a) Q :=
  fun s hi hp s₁ hl hi₁ => h s₁ hi₁ (hP.later s s₁ hi hi₁ hl hp)

/-- **Action.** The action is allowed under the precondition, and each answer
establishes its assertion. -/
theorem Triple.act {x : Act} [hP : D.Stable P] (R : Res x → σ → Prop) [hR : ∀ r, D.Stable (R r)]
    (hx : ∀ s, D.inv s → D.cond s x → P s → D.allowed s x)
    (hpost : ∀ s r s', D.inv s → D.cond s x → P s → M.Exec s x r s' → D.inv s' →
      D.later s s' → R r s') :
    Triple M D P (.perform x) R := by
  intro s hi hp s₁ hl hi₁ hc
  have hp₁ := hP.later s s₁ hi hi₁ hl hp
  refine ⟨hx s₁ hi₁ hc hp₁, fun r s₂ he hi₂ hl₂ s₃ hl₃ hi₃ => ?_⟩
  exact (hR r).later s₂ s₃ hi₂ hi₃ hl₃ (hpost s₁ r s₂ hi₁ hc hp₁ he hi₂ hl₂)

/-- **Sequencing**, carrying the precondition along. -/
theorem Triple.bind [D.Stable P] {p : Prog Act Res α} {f : α → Prog Act Res β}
    (h : Triple M D P p R) (k : ∀ a, Triple M D (fun s => P s ∧ R a s) (f a) Q) :
    Triple M D P (p >>= f) Q :=
  fun s hi hp => Safe.bind hi ((Safe.frame hi hp (h s hi hp)).mono fun a s₁ hi₁ hr =>
    k a s₁ hi₁ hr)

/-- Sequencing, when nothing is asserted of the first part. -/
theorem Triple.seq [D.Stable P] {p : Prog Act Res α} {f : α → Prog Act Res β}
    (h : Triple M D P p fun _ _ => True) (k : ∀ a, Triple M D P (f a) Q) :
    Triple M D P (p >>= f) Q :=
  h.bind fun a => (k a).pre fun _ _ hp => hp.1

end Rules

/-! ## Triples for routines -/

variable (M D) in
/-- From `P`, the routine is safe; `Q` holds when it succeeds, and a failure is in `E`. -/
def OkTriple (E : ε → Prop) (P : σ → Prop) (p : Routine Act Res ε α) (Q : α → σ → Prop) : Prop :=
  Triple M D P p fun r s => (∀ a, r = .ok a → Q a s) ∧ ∀ e, r = .error e → E e

section OkRules

variable {E : ε → Prop} {E' : ε' → Prop} {P P' : σ → Prop} {R : α → σ → Prop}
  {Q Q' : β → σ → Prop}

theorem OkTriple.conseq {p : Routine Act Res ε β} (h : OkTriple M D E P p Q)
    (hP : ∀ s, D.inv s → P' s → P s) (hQ : ∀ a s, D.inv s → Q a s → Q' a s) :
    OkTriple M D E P' p Q' :=
  Triple.conseq h hP fun _ s hi hq => ⟨fun a ha => hQ a s hi (hq.1 a ha), hq.2⟩

theorem OkTriple.pre {p : Routine Act Res ε β} (h : OkTriple M D E P p Q)
    (hP : ∀ s, D.inv s → P' s → P s) : OkTriple M D E P' p Q :=
  Triple.pre h hP

theorem OkTriple.pure {a : β} [D.Stable P] (h : ∀ s, D.inv s → P s → Q a s) :
    OkTriple M D E P (Pure.pure a : Routine Act Res ε β) Q := by
  refine Triple.done fun s hi hp => ⟨fun b hb => ?_, fun e he => nomatch he⟩
  obtain rfl := Except.ok.inj hb
  exact h s hi hp

/-- A failure ends the routine. -/
theorem OkTriple.fail {e : ε} [D.Stable P] (he : E e) :
    OkTriple M D E P (Routine.fail e : Routine Act Res ε β) Q := by
  refine Triple.done fun _ _ _ => ⟨fun b hb => (nomatch hb), fun e' he' => ?_⟩
  obtain rfl := Except.error.inj he'
  exact he

/-- **Sequencing**, carrying the precondition along. -/
theorem OkTriple.bind [D.Stable P] {p : Routine Act Res ε α} {f : α → Routine Act Res ε β}
    (h : OkTriple M D E P p R) (k : ∀ a, OkTriple M D E (fun s => P s ∧ R a s) (f a) Q) :
    OkTriple M D E P (p >>= f) Q := by
  intro s hi hp
  refine Safe.bind hi ((Safe.frame hi hp (h s hi hp)).mono fun r s₁ hi₁ hr => ?_)
  cases r with
  | ok a => exact k a s₁ hi₁ ⟨hr.1, hr.2.1 a rfl⟩
  | error e =>
      refine fun _ _ _ => ⟨fun a ha => (nomatch ha), fun e' he' => ?_⟩
      obtain rfl := Except.error.inj he'
      exact hr.2.2 e rfl

/-- Sequencing, when nothing is asserted of the first part. -/
theorem OkTriple.seq [D.Stable P] {p : Routine Act Res ε α} {f : α → Routine Act Res ε β}
    (h : OkTriple M D E P p fun _ _ => True) (k : ∀ a, OkTriple M D E P (f a) Q) :
    OkTriple M D E P (p >>= f) Q :=
  h.bind fun a => (k a).pre fun _ _ hp => hp.1

/-- What holds before still holds after a success. -/
theorem OkTriple.frame [D.Stable P] {p : Routine Act Res ε β} (h : OkTriple M D E P p Q) :
    OkTriple M D E P p fun a s => P s ∧ Q a s := by
  intro s hi hp
  refine (Safe.frame hi hp (h s hi hp)).mono fun r s₁ _ hr => ?_
  exact ⟨fun a ha => ⟨hr.1, hr.2.1 a ha⟩, hr.2.2⟩

/-- A program inside a routine. -/
theorem OkTriple.lift {p : Prog Act Res β} [hQ : ∀ a, D.Stable (Q a)] (h : Triple M D P p Q) :
    OkTriple M D E P (Routine.lift p : Routine Act Res ε β) Q := by
  intro s hi hp
  refine Safe.bind hi ((h s hi hp).mono fun a s₁ hi₁ hq s₂ hl hi₂ => ⟨fun b hb => ?_, ?_⟩)
  · obtain rfl := Except.ok.inj hb
    exact (hQ a).later s₁ s₂ hi₁ hi₂ hl hq
  · exact fun e he => nomatch he

/-- The operator `?`: the routine goes on with a success. -/
theorem OkTriple.try_ {p : Prog Act Res (Except ε' β)} {f : ε' → ε} [hQ : ∀ a, D.Stable (Q a)]
    (h : OkTriple M D E' P p Q) (hE : ∀ e, E' e → E (f e)) :
    OkTriple M D E P (Routine.try_ p f : Routine Act Res ε β) Q := by
  intro s hi hp
  refine Safe.bind hi ((h s hi hp).mono fun r s₁ hi₁ hq => ?_)
  cases r with
  | error e =>
      refine fun _ _ _ => ⟨fun a ha => (nomatch ha), fun e' he' => ?_⟩
      obtain rfl := Except.error.inj he'
      exact hE e (hq.2 e rfl)
  | ok a =>
      refine fun s₂ hl hi₂ => ⟨fun b hb => ?_, fun e he => nomatch he⟩
      obtain rfl := Except.ok.inj hb
      exact (hQ a).later s₁ s₂ hi₁ hi₂ hl (hq.1 a rfl)

/-- A routine whose failure is looked at. -/
theorem OkTriple.attempt {p : Routine Act Res ε' β} [hQ : ∀ a, D.Stable (Q a)]
    (h : OkTriple M D E' P p Q) :
    OkTriple M D E P (p.attempt : Routine Act Res ε (Except ε' β))
      fun r s => ∀ a, r = .ok a → Q a s := by
  intro s hi hp
  refine Safe.bind hi ((h s hi hp).mono fun r s₁ hi₁ hq s₂ hl hi₂ => ⟨fun b hb a ha => ?_, ?_⟩)
  · obtain rfl := Except.ok.inj hb
    exact (hQ a).later s₁ s₂ hi₁ hi₂ hl (hq.1 a ha)
  · exact fun e he => nomatch he

/-- The value of a result. -/
theorem OkTriple.ofExcept {r : Except ε β} [D.Stable P] (he : ∀ e, r = .error e → E e) :
    OkTriple M D E P (Routine.ofExcept r : Routine Act Res ε β) fun a _ => r = .ok a :=
  Triple.done fun _ _ _ => ⟨fun _ h => h, he⟩

end OkRules

end Machine

end Logic
