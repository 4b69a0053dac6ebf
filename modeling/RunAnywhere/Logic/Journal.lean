import Mathlib.Data.List.Nodup
import RunAnywhere.Logic.Path

/-!
# Journals

The actions a machine performed, each with its caller, its answer and the states before
and after it:

* **journals** — `Machine.journaled` runs a machine and keeps its journal. No caller is used
  twice, and of the callers in `solo`, the calls of one task, only one runs at a time;
* **links** — `Linked exec quiet s J s'`: the records of `J` follow one another from `s` to
  `s'`, with moves in `quiet` between them. What is lost on the way was lost at a record
  (`Linked.leaves`);
* **callers** — `own i J` are the steps of caller `i`. A running call is on a path of its
  program by its own steps, and no two solo calls overlap (`Live`, `live_invariant`);
* **records** — what holds of an action whenever it is performed holds of each record, given
  the journal before it (`record_invariant`).
-/

namespace Logic

variable {σ Act : Type} {Res : Act → Type} {ι ρ ω η : Type}

/-- An action that was performed. -/
structure Record (σ Act : Type) (Res : Act → Type) (ι : Type) where
  who : ι
  step : Σ x, Res x
  before : σ
  after : σ

/-- A pool with the records of its actions, oldest first. -/
structure Journaled (σ Act : Type) (Res : Act → Type) (ι ρ : Type) where
  pool : Pool σ Act Res ι ρ
  journal : List (Record σ Act Res ι)

/-! ## Links -/

/-- The records follow one another from `s` to `s'`. -/
inductive Linked (exec : σ → (x : Act) → Res x → σ → Prop) (quiet : σ → σ → Prop) :
    σ → List (Record σ Act Res ι) → σ → Prop
  | nil {s s'} : quiet s s' → Linked exec quiet s [] s'
  | cons {s e J s'} : quiet s e.before → exec e.before e.step.1 e.step.2 e.after →
      Linked exec quiet e.after J s' → Linked exec quiet s (e :: J) s'

namespace Linked

variable {exec : σ → (x : Act) → Res x → σ → Prop} {quiet : σ → σ → Prop} {s s' s'' : σ}
  {J K : List (Record σ Act Res ι)}

/-- One more record. -/
theorem snoc (hrefl : ∀ s, quiet s s) (h : Linked exec quiet s J s') {i : ι} {x : Act} {r : Res x}
    (hx : exec s' x r s'') : Linked exec quiet s (J ++ [⟨i, ⟨x, r⟩, s', s''⟩]) s'' := by
  induction h with
  | nil hq => exact .cons hq hx (.nil (hrefl _))
  | cons hq he _ ih => exact .cons hq he (ih hx)

/-- A quiet move at the end. -/
theorem later (htrans : ∀ {a b c}, quiet a b → quiet b c → quiet a c)
    (h : Linked exec quiet s J s') (hq : quiet s' s'') : Linked exec quiet s J s'' := by
  induction h with
  | nil hfirst => exact .nil (htrans hfirst hq)
  | cons hfirst he _ ih => exact .cons hfirst he (ih hq)

theorem of_append (hrefl : ∀ s, quiet s s) (h : Linked exec quiet s (J ++ K) s') :
    ∃ m, Linked exec quiet s J m ∧ Linked exec quiet m K s' := by
  induction J generalizing s with
  | nil => exact ⟨s, .nil (hrefl s), h⟩
  | cons e J ih =>
      cases h with
      | cons hq he hrest =>
          obtain ⟨m, hJ, hK⟩ := ih hrest
          exact ⟨m, .cons hq he hJ, hK⟩

/-- **First exit.** What quiet moves keep and the journal loses is lost at a record. -/
theorem leaves {P : σ → Prop} (hquiet : ∀ s s', quiet s s' → P s → P s')
    (h : Linked exec quiet s J s') (hP : P s) (hn : ¬ P s') :
    ∃ A e B, J = A ++ e :: B ∧ P e.before ∧ ¬ P e.after := by
  induction h with
  | nil hq => exact absurd (hquiet _ _ hq hP) hn
  | @cons s e J s' hq _ _ ih =>
      have hbefore : P e.before := hquiet _ _ hq hP
      by_cases hafter : P e.after
      · obtain ⟨A, e', B, rfl, hlost⟩ := ih hafter hn
        exact ⟨e :: A, e', B, rfl, hlost⟩
      · exact ⟨[], e, J, rfl, hbefore, hafter⟩

/-- Each record is of an execution. -/
theorem mem (h : Linked exec quiet s J s') :
    ∀ e ∈ J, exec e.before e.step.1 e.step.2 e.after := by
  induction h with
  | nil => exact fun e he => nomatch he
  | cons _ hx _ ih =>
      intro e he
      rcases List.mem_cons.mp he with rfl | hmem
      · exact hx
      · exact ih e hmem

/-- What every move and every execution extends. -/
theorem extends_ {R : σ → σ → Prop} (htrans : ∀ {a b c}, R a b → R b c → R a c)
    (hquiet : ∀ s s', quiet s s' → R s s') (hexec : ∀ s x r s', exec s x r s' → R s s')
    (h : Linked exec quiet s J s') : R s s' := by
  induction h with
  | nil hq => exact hquiet _ _ hq
  | cons hq he _ ih => exact htrans (hquiet _ _ hq) (htrans (hexec _ _ _ _ he) ih)

/-- From a record to the end. -/
theorem extends_mem {R : σ → σ → Prop} (htrans : ∀ {a b c}, R a b → R b c → R a c)
    (hquiet : ∀ s s', quiet s s' → R s s') (hexec : ∀ s x r s', exec s x r s' → R s s')
    (h : Linked exec quiet s J s') : ∀ e ∈ J, R e.before s' := by
  induction h with
  | nil => exact fun e he => absurd he List.not_mem_nil
  | cons _ hx hrest ih =>
      intro e he
      rcases List.mem_cons.mp he with rfl | hmem
      · exact htrans (hexec _ _ _ _ hx) (hrest.extends_ htrans hquiet hexec)
      · exact ih e hmem

end Linked

/-! ## The steps of one caller -/

section Own

variable [DecidableEq ι]

/-- The steps of caller `i`. -/
def own (i : ι) (J : List (Record σ Act Res ι)) : List (Σ x, Res x) :=
  (J.filter fun e => e.who = i).map (·.step)

@[simp] theorem own_nil (i : ι) : own i ([] : List (Record σ Act Res ι)) = [] := rfl

@[simp] theorem own_append (i : ι) (J K : List (Record σ Act Res ι)) :
    own i (J ++ K) = own i J ++ own i K := by
  simp only [own, List.filter_append, List.map_append]

theorem own_self {i : ι} {e : Record σ Act Res ι} (h : e.who = i) : own i [e] = [e.step] := by
  simp [own, h]

theorem own_ne {i : ι} {e : Record σ Act Res ι} (h : e.who ≠ i) : own i [e] = [] := by
  simp [own, h]

theorem own_eq_nil {i : ι} {J : List (Record σ Act Res ι)} :
    own i J = [] ↔ ∀ e ∈ J, e.who ≠ i := by
  simp [own]

/-- The record of a step of a caller. -/
theorem own_split {i : ι} {J : List (Record σ Act Res ι)} {front back : List (Σ x, Res x)}
    {step : Σ x, Res x} (h : own i J = front ++ step :: back) :
    ∃ A e B, J = A ++ e :: B ∧ own i A = front ∧ e.who = i ∧ e.step = step ∧ own i B = back := by
  obtain ⟨former, latter, hfilter, hformer, hlatter⟩ := List.map_eq_append_iff.mp h
  obtain ⟨A, rest, rfl, hA, hrest⟩ := List.filter_eq_append_iff.mp hfilter
  obtain ⟨e, last, rfl, hstep, hlast⟩ := List.map_eq_cons_iff.mp hlatter
  obtain ⟨C, B, rfl, hC, he, rfl⟩ := List.filter_eq_cons_iff.mp hrest
  refine ⟨A ++ C, e, B, by rw [List.append_assoc], ?_, of_decide_eq_true he, hstep, hlast⟩
  have hnone : own i C = [] := own_eq_nil.mpr fun c hc hwho => hC c hc (decide_eq_true hwho)
  rw [own_append, hnone, List.append_nil, own, hA, hformer]

theorem mem_own {i : ι} {J : List (Record σ Act Res ι)} {step : Σ x, Res x} :
    step ∈ own i J ↔ ∃ e ∈ J, e.who = i ∧ e.step = step := by
  simp only [own, List.mem_map, List.mem_filter, decide_eq_true_iff, and_assoc]

end Own

/-! ## Threads of different callers -/

section Apart

variable {solo : ι → Bool}

/-- The callers of the threads are distinct, and at most one is solo. -/
structure Apart (solo : ι → Bool) (threads : List (Thread σ Act Res ι ρ)) : Prop where
  nodup : (threads.map (·.tag)).Nodup
  solo : ∀ a ∈ threads, ∀ b ∈ threads, solo a.tag = true → solo b.tag = true → a.tag = b.tag

theorem Apart.sublist {threads threads' : List (Thread σ Act Res ι ρ)}
    (h : Apart solo threads) (hsub : threads'.Sublist threads) : Apart solo threads' where
  nodup := h.nodup.sublist (hsub.map _)
  solo a ha b hb := h.solo a (hsub.subset ha) b (hsub.subset hb)

theorem Apart.spawn {threads : List (Thread σ Act Res ι ρ)} {new : Thread σ Act Res ι ρ}
    (h : Apart solo threads) (hnew : ∀ th ∈ threads, th.tag ≠ new.tag ∧
      ¬ (solo th.tag = true ∧ solo new.tag = true)) : Apart solo (threads ++ [new]) := by
  refine ⟨?_, ?_⟩
  · rw [List.map_append, List.map_singleton]
    refine h.nodup.append (List.nodup_singleton _) ?_
    rintro i hold hsame
    obtain rfl := List.mem_singleton.mp hsame
    obtain ⟨th, hth, htag⟩ := List.mem_map.mp hold
    exact (hnew th hth).1 htag
  · rintro a ha b hb hsa hsb
    rcases List.mem_append.mp ha with ha | ha <;> rcases List.mem_append.mp hb with hb | hb
    · exact h.solo a ha b hb hsa hsb
    · rw [List.mem_singleton.mp hb] at hsb
      exact absurd ⟨hsa, hsb⟩ (hnew a ha).2
    · rw [List.mem_singleton.mp ha] at hsa
      exact absurd ⟨hsb, hsa⟩ (hnew b hb).2
    · rw [List.mem_singleton.mp ha, List.mem_singleton.mp hb]

/-- A thread goes on. -/
theorem Apart.set {threads : List (Thread σ Act Res ι ρ)} {n : Nat} {old new : Thread σ Act Res ι ρ}
    (h : Apart solo threads) (hold : threads[n]? = some old) (htag : new.tag = old.tag) :
    Apart solo (threads.set n new) := by
  have hmap : (threads.set n new).map (·.tag) = threads.map (·.tag) := by
    rw [List.map_set, htag]
    refine List.ext_getElem? fun m => ?_
    rw [List.getElem?_set]
    split
    · next hm =>
        subst hm
        simp only [List.length_map, List.getElem?_map, hold, Option.map_some]
        rw [if_pos (List.getElem?_eq_some_iff.mp hold).1]
    · rfl
  refine ⟨hmap ▸ h.nodup, ?_⟩
  have hmem : ∀ th ∈ threads.set n new, ∃ th' ∈ threads, th'.tag = th.tag := by
    intro th hth
    rcases List.mem_or_eq_of_mem_set hth with hin | rfl
    · exact ⟨th, hin, rfl⟩
    · exact ⟨old, List.mem_of_getElem? hold, htag.symm⟩
  intro a ha b hb hsa hsb
  obtain ⟨a', ha', hsame⟩ := hmem a ha
  obtain ⟨b', hb', hsame'⟩ := hmem b hb
  rw [← hsame, ← hsame']
  exact h.solo a' ha' b' hb' (hsame ▸ hsa) (hsame' ▸ hsb)

/-- A thread after thread `n` went on is that thread, or another caller's. -/
theorem Apart.cases_set {threads : List (Thread σ Act Res ι ρ)} {n : Nat}
    {new th : Thread σ Act Res ι ρ} (h : Apart solo (threads.set n new)) (hn : n < threads.length)
    (hth : th ∈ threads.set n new) : th = new ∨ (th ∈ threads ∧ th.tag ≠ new.tag) := by
  by_cases htag : th.tag = new.tag
  · exact Or.inl (List.inj_on_of_nodup_map h.nodup hth (List.mem_set hn new) htag)
  · rcases List.mem_or_eq_of_mem_set hth with hin | rfl
    · exact Or.inr ⟨hin, htag⟩
    · exact absurd rfl htag

end Apart

/-! ## Machines with a journal -/

namespace Machine

variable [DecidableEq ι] (M : Machine σ Act Res ι ρ ω η) (solo : ι → Bool)

/-- The record of a command. -/
def records (p : Pool σ Act Res ι ρ) : Cmd ι ω η → List (Record σ Act Res ι)
  | .act n o =>
      match p.threads[n]? with
      | some ⟨i, _, .act x _⟩ =>
          ((M.perform p.state x o).map fun r => ⟨i, ⟨x, r.1⟩, p.state, r.2⟩).toList
      | _ => []
  | _ => []

/-- A caller is new, and alone of its task. -/
def mayStart (q : Journaled σ Act Res ι ρ) : Cmd ι ω η → Bool
  | .spawn i => (q.journal.all fun e => decide (e.who ≠ i)) &&
      q.pool.threads.all fun th => decide (th.tag ≠ i) && !(solo th.tag && solo i)
  | _ => true

/-- The pool and the journal after a command. -/
def log (q : Journaled σ Act Res ι ρ) (c : Cmd ι ω η) : Option (Journaled σ Act Res ι ρ) :=
  if mayStart solo q c then
    (M.next q.pool c).map fun p => ⟨p, q.journal ++ M.records q.pool c⟩
  else none

/-- The runs of the machine with their journals. -/
def journaled (init : σ → Prop) : TSys (Journaled σ Act Res ι ρ) (Cmd ι ω η) where
  init q := init q.pool.state ∧ q.pool.threads = [] ∧ q.journal = []
  step q c q' := M.log solo q c = some q'

/-- The pool after a list of commands, with its journal. -/
def logs (q : Journaled σ Act Res ι ρ) : List (Cmd ι ω η) → Option (Journaled σ Act Res ι ρ)
  | [] => some q
  | c :: cs => (M.log solo q c).bind fun q' => logs q' cs

variable {M solo} {init : σ → Prop}

theorem logs_reachable {q q' : Journaled σ Act Res ι ρ} {cs : List (Cmd ι ω η)}
    (hq : (M.journaled solo init).Reachable q) (h : M.logs solo q cs = some q') :
    (M.journaled solo init).Reachable q' := by
  induction cs generalizing q with
  | nil =>
      obtain rfl := Option.some.inj h
      exact hq
  | cons c cs ih =>
      obtain ⟨q₁, hlog, hrest⟩ := Option.bind_eq_some_iff.mp h
      exact ih (.step hq hlog) hrest

/-- What a command does: it spawns a new call, performs the action of a thread, or only ends
threads and moves the state. -/
theorem log_cases {q q' : Journaled σ Act Res ι ρ} {c : Cmd ι ω η} (h : M.log solo q c = some q') :
    (∃ i, (∀ e ∈ q.journal, e.who ≠ i) ∧ M.enabled q.pool.state i = true ∧
        (∀ th ∈ q.pool.threads, th.tag ≠ i ∧ ¬ (solo th.tag = true ∧ solo i = true)) ∧
        q' = ⟨⟨q.pool.state, q.pool.threads ++ [⟨i, q.pool.state, M.prog i⟩]⟩, q.journal⟩) ∨
      (∃ n i birth x k r s', q.pool.threads[n]? = some ⟨i, birth, .act x k⟩ ∧
        M.Exec q.pool.state x r s' ∧ q' = ⟨⟨s', q.pool.threads.set n ⟨i, birth, k r⟩⟩,
          q.journal ++ [⟨i, ⟨x, r⟩, q.pool.state, s'⟩]⟩) ∨
      (q'.pool.threads.Sublist q.pool.threads ∧ q'.journal = q.journal ∧
        (q'.pool.state = q.pool.state ∨ (∃ e, M.env q.pool.state e = some q'.pool.state) ∨
          (q'.pool.state = M.crash q.pool.state ∧
            q'.pool.threads = q.pool.threads.filter fun th => M.survives th.tag))) := by
  unfold log at h
  split at h
  case isFalse => cases h
  next hstart =>
  obtain ⟨p, hnext, rfl⟩ := Option.map_eq_some_iff.mp h
  cases c with
  | spawn i =>
      simp only [next] at hnext
      split at hnext
      case isFalse => cases hnext
      next henabled =>
      obtain rfl := Option.some.inj hnext
      simp only [mayStart, Bool.and_eq_true, List.all_eq_true, decide_eq_true_iff,
        Bool.not_eq_true', Bool.and_eq_false_iff] at hstart
      refine Or.inl ⟨i, hstart.1, henabled, fun th hth => ⟨(hstart.2 th hth).1, ?_⟩, by
        simp only [records, List.append_nil]⟩
      rintro ⟨hthread, hnew⟩
      rcases (hstart.2 th hth).2 with hno | hno
      · exact Bool.false_ne_true (hno.symm.trans hthread)
      · exact Bool.false_ne_true (hno.symm.trans hnew)
  | act n o =>
      simp only [next] at hnext
      split at hnext
      · next i birth x k hthread =>
          obtain ⟨⟨r, s'⟩, hexec, rfl⟩ := Option.map_eq_some_iff.mp hnext
          refine Or.inr (Or.inl ⟨n, i, birth, x, k, r, s', hthread, ⟨o, hexec⟩, ?_⟩)
          simp only [records, hthread, hexec, Option.map_some, Option.toList_some]
      · cases hnext
  | finish n =>
      simp only [next] at hnext
      split at hnext
      · obtain rfl := Option.some.inj hnext
        exact Or.inr (Or.inr ⟨List.eraseIdx_sublist _ _, List.append_nil _, Or.inl rfl⟩)
      · cases hnext
  | kill n =>
      obtain rfl := Option.some.inj hnext
      exact Or.inr (Or.inr ⟨List.eraseIdx_sublist _ _, List.append_nil _, Or.inl rfl⟩)
  | env e =>
      obtain ⟨s', henv, rfl⟩ := Option.map_eq_some_iff.mp hnext
      exact Or.inr (Or.inr ⟨List.Sublist.refl _, List.append_nil _, Or.inr (Or.inl ⟨e, henv⟩)⟩)
  | crash =>
      obtain rfl := Option.some.inj hnext
      refine Or.inr (Or.inr ⟨List.filter_sublist, List.append_nil _, ?_⟩)
      exact Or.inr (Or.inr ⟨rfl, rfl⟩)

/-! ## Invariants -/

/-- The moves that no caller makes lie in `quiet`, and no call outlives a crash. -/
structure Quiet (M : Machine σ Act Res ι ρ ω η) (quiet : σ → σ → Prop) : Prop where
  refl : ∀ s, quiet s s
  trans : ∀ {a b c}, quiet a b → quiet b c → quiet a c
  env : ∀ {s e s'}, M.env s e = some s' → quiet s s'
  crash : ∀ i, M.survives i = false

theorem apart_invariant :
    (M.journaled solo init).Invariant fun q => Apart solo q.pool.threads := by
  refine TSys.Inductive.invariant ⟨?_, ?_⟩
  · rintro q ⟨_, hnone, _⟩
    rw [hnone]
    exact ⟨List.nodup_nil, fun a ha => nomatch ha⟩
  · intro q c q' _ hq hstep
    rcases log_cases hstep with ⟨i, _, _, hnew, rfl⟩ | ⟨n, i, birth, x, k, r, s', hth, _, rfl⟩ |
      ⟨hsub, _⟩
    · exact hq.spawn hnew
    · exact hq.set hth rfl
    · exact hq.sublist hsub

/-- A running call: `before` are the records from before its first action, `since` those
from its birth on. -/
structure Live (M : Machine σ Act Res ι ρ ω η) (solo : ι → Bool) (quiet : σ → σ → Prop)
    (th : Thread σ Act Res ι ρ) (before since : List (Record σ Act Res ι)) (s : σ) : Prop where
  new : own th.tag before = []
  path : (M.prog th.tag).Path (own th.tag since) th.rest
  alone : ∀ e ∈ since, solo e.who = true → solo th.tag = true → e.who = th.tag
  linked : Linked M.Exec quiet th.birth since s
  enabled : M.enabled th.birth th.tag = true

/-- **Calls.** Every thread is on a path of its program by its own steps, among the steps of
others. -/
theorem live_invariant {quiet : σ → σ → Prop} (hquiet : Quiet M quiet) :
    (M.journaled solo init).Invariant fun q => ∀ th ∈ q.pool.threads, ∃ before since,
      q.journal = before ++ since ∧ Live M solo quiet th before since q.pool.state := by
  refine TSys.Inductive.invariant ⟨?_, ?_⟩
  · rintro q ⟨_, hnone, _⟩ th hth
    rw [hnone] at hth
    cases hth
  · intro q c q' hr hq hstep th hth
    have hapart' : Apart solo q'.pool.threads := apart_invariant q' (.step hr hstep)
    rcases log_cases hstep with ⟨i, hfresh, henabled, hnew, rfl⟩ |
      ⟨n, i, birth, x, k, r, s', hthread, hexec, rfl⟩ | ⟨hsub, hjournal, hstate⟩
    · -- the new call has no records yet
      rcases List.mem_append.mp hth with hold | hlast
      · exact hq th hold
      · obtain rfl := List.mem_singleton.mp hlast
        refine ⟨q.journal, [], (List.append_nil _).symm, ?_⟩
        exact ⟨own_eq_nil.mpr hfresh, .nil _, fun e he => absurd he List.not_mem_nil,
          .nil (hquiet.refl _), henabled⟩
    · have hin : (⟨i, birth, .act x k⟩ : Thread σ Act Res ι ρ) ∈ q.pool.threads :=
        List.mem_of_getElem? hthread
      have hn : n < q.pool.threads.length := (List.getElem?_eq_some_iff.mp hthread).1
      rcases hapart'.cases_set hn hth with rfl | ⟨hold, hne⟩
      · -- the caller that acted
        obtain ⟨before, since, hjournal, hlive⟩ := hq _ hin
        refine ⟨before, since ++ [⟨i, ⟨x, r⟩, q.pool.state, s'⟩], ?_, hlive.new, ?_, ?_, ?_,
          hlive.enabled⟩
        · rw [hjournal, List.append_assoc]
        · have hown : own i [(⟨i, ⟨x, r⟩, q.pool.state, s'⟩ : Record σ Act Res ι)] = [⟨x, r⟩] :=
            own_self rfl
          rw [own_append, hown]
          exact hlive.path.snoc r
        · intro e he hse hsolo
          rcases List.mem_append.mp he with hmem | hlast
          · exact hlive.alone e hmem hse hsolo
          · obtain rfl := List.mem_singleton.mp hlast
            rfl
        · exact hlive.linked.snoc hquiet.refl hexec
      · -- the others
        obtain ⟨before, since, hjournal, hlive⟩ := hq th hold
        refine ⟨before, since ++ [⟨i, ⟨x, r⟩, q.pool.state, s'⟩], ?_, hlive.new, ?_, ?_, ?_,
          hlive.enabled⟩
        · rw [hjournal, List.append_assoc]
        · rw [own_append, own_ne fun h => hne h.symm, List.append_nil]
          exact hlive.path
        · intro e he hse hsolo
          rcases List.mem_append.mp he with hmem | hlast
          · exact hlive.alone e hmem hse hsolo
          · obtain rfl := List.mem_singleton.mp hlast
            exact (apart_invariant q hr).solo _ hin th hold hse hsolo
        · exact hlive.linked.snoc hquiet.refl hexec
    · obtain ⟨before, since, hbefore, hlive⟩ := hq th (hsub.subset hth)
      refine ⟨before, since, hjournal.trans hbefore, hlive.new, hlive.path, hlive.alone, ?_,
        hlive.enabled⟩
      rcases hstate with hsame | ⟨e, henv⟩ | ⟨_, hsurvivors⟩
      · exact hsame ▸ hlive.linked
      · exact hlive.linked.later hquiet.trans (hquiet.env henv)
      · rw [hsurvivors] at hth
        exact absurd (List.mem_filter.mp hth).2 (by rw [hquiet.crash]; exact Bool.false_ne_true)

/-- **States.** What every move keeps holds of the state, whatever the journal. -/
theorem state_invariant {P : σ → Prop} (hinit : ∀ s, init s → P s)
    (hexec : ∀ s x r s', M.Exec s x r s' → P s → P s')
    (henv : ∀ s e s', M.env s e = some s' → P s → P s') (hcrash : ∀ s, P s → P (M.crash s)) :
    (M.journaled solo init).Invariant fun q => P q.pool.state := by
  refine TSys.Inductive.invariant ⟨fun q hq => hinit _ hq.1, ?_⟩
  intro q c q' _ hq hstep
  rcases log_cases hstep with ⟨i, _, _, _, rfl⟩ | ⟨n, i, birth, x, k, r, s', _, hx, rfl⟩ |
    ⟨_, _, hsame | ⟨e, he⟩ | ⟨hcrashed, _⟩⟩
  · exact hq
  · exact hexec _ _ _ _ hx hq
  · exact hsame ▸ hq
  · exact henv _ _ _ he hq
  · exact hcrashed ▸ hcrash _ hq

/-- **Records.** What holds of every action when it is performed holds of each record, given
the journal before it. -/
theorem record_invariant {quiet : σ → σ → Prop} (hquiet : Quiet M quiet)
    {R : List (Record σ Act Res ι) → Record σ Act Res ι → Prop}
    (h : ∀ q i birth before since x k r s', (M.journaled solo init).Reachable q →
      q.journal = before ++ since →
      Live M solo quiet ⟨i, birth, .act x k⟩ before since q.pool.state →
      M.Exec q.pool.state x r s' → R (before ++ since) ⟨i, ⟨x, r⟩, q.pool.state, s'⟩) :
    (M.journaled solo init).Invariant fun q => ∀ A e B, q.journal = A ++ e :: B → R A e := by
  refine TSys.Inductive.invariant ⟨?_, ?_⟩
  · rintro q ⟨_, _, hnone⟩ A e B hsplit
    rw [hnone] at hsplit
    exact absurd hsplit.symm (List.append_ne_nil_of_right_ne_nil _ (List.cons_ne_nil _ _))
  · intro q c q' hr hq hstep A e B hsplit
    rcases log_cases hstep with ⟨i, _, _, _, rfl⟩ |
      ⟨n, i, birth, x, k, r, s', hthread, hexec, rfl⟩ | ⟨_, hjournal, _⟩
    · exact hq A e B hsplit
    · obtain ⟨before, since, hjournal, hlive⟩ :=
        live_invariant hquiet q hr _ (List.mem_of_getElem? hthread)
      rcases List.eq_nil_or_concat B with rfl | ⟨B', last, rfl⟩
      · -- the new record
        obtain ⟨rfl, hlast⟩ := List.append_inj' hsplit rfl
        obtain rfl := (List.cons.inj hlast).1
        rw [hjournal]
        exact h q i birth before since x k r s' hr hjournal hlive hexec
      · have hold : q.journal ++ [⟨i, ⟨x, r⟩, q.pool.state, s'⟩] = (A ++ e :: B') ++ [last] := by
          refine hsplit.trans ?_
          simp only [List.concat_eq_append, List.append_assoc, List.cons_append]
        exact hq A e B' (List.append_inj' hold rfl).1
    · exact hq A e B (hjournal ▸ hsplit)

/-- **The whole journal** is linked, by moves that cover the crashes too. -/
theorem linked_invariant {moves : σ → σ → Prop} (hrefl : ∀ s, moves s s)
    (htrans : ∀ {a b c}, moves a b → moves b c → moves a c)
    (henv : ∀ {s e s'}, M.env s e = some s' → moves s s') (hcrash : ∀ s, moves s (M.crash s)) :
    (M.journaled solo init).Invariant fun q =>
      ∃ s, init s ∧ Linked M.Exec moves s q.journal q.pool.state := by
  refine TSys.Inductive.invariant ⟨?_, ?_⟩
  · rintro q ⟨hinit, _, hnone⟩
    rw [hnone]
    exact ⟨_, hinit, .nil (hrefl _)⟩
  · rintro q c q' _ ⟨s, hinit, hlinked⟩ hstep
    refine ⟨s, hinit, ?_⟩
    rcases log_cases hstep with ⟨i, _, _, _, rfl⟩ | ⟨n, i, birth, x, k, r, s', _, hexec, rfl⟩ |
      ⟨_, hjournal, hstate⟩
    · exact hlinked
    · exact hlinked.snoc hrefl hexec
    · rw [hjournal]
      rcases hstate with hsame | ⟨e, henvm⟩ | ⟨hcrashed, _⟩
      · exact hsame ▸ hlinked
      · exact hlinked.later htrans (henv henvm)
      · exact hlinked.later htrans (hcrashed ▸ hcrash _)

end Machine

end Logic
