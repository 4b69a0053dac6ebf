import RunAnywhere.Scheduler.Leader

/-!
# One leader

What the leadership lock gives the scheduler, over every run of any number of instances whose
queries may fail and whose sessions the server may close at any time:

* **terms** — a health check succeeds only for the instance that was granted the lock last
  (`Terms.step`), so the successful checks of two instances never alternate without a new grant;
* **refusals** — the lock is refused only while another open session holds it: the guard of
  another instance, or a connection that was dropped and that the server has not closed.
-/

namespace RunAnywhere.Leader

open Logic World

variable {ι : Type} [DecidableEq ι] {w w' : World ι} {es : List (Event ι)}

/-- An instance that leads and still holds the lock was granted it last. -/
def Terms (es : List (Event ι)) (w : World ι) : Prop :=
  ∀ i n, w.phase i = .leading n → w.server.Holds n →
    ∃ older newer, es = older ++ .tryLock i (.is true) :: newer ∧ ∀ e ∈ newer, ∀ j, ¬ e.Acquires j

omit [DecidableEq ι] in
/-- What does not grant the lock keeps the terms. -/
theorem Terms.keep (h : Terms es w) {e : Event ι} (hno : ∀ j, ¬ e.Acquires j)
    (hphase : ∀ i n, w'.phase i = .leading n → w.phase i = .leading n)
    (hholds : ∀ n, w'.server.Holds n → w.server.Holds n) : Terms (es ++ [e]) w' := by
  intro i n hi hn
  obtain ⟨older, newer, rfl, hnewer⟩ := h i n (hphase i n hi) (hholds n hn)
  refine ⟨older, newer ++ [e], by simp, fun e' he' => ?_⟩
  rcases List.mem_append.mp he' with hmem | hlast
  · exact hnewer e' hmem
  · cases List.mem_singleton.mp hlast
    exact hno

/-- An instance that goes on to something other than leading does not lead. -/
theorem leading_of_become {i j : ι} {p : Phase} {server : Server} {n : Nat}
    (hp : ∀ n, p ≠ .leading n) (h : (w.become i p server).phase j = .leading n) :
    w.phase j = .leading n := by
  rw [become_phase] at h
  split at h
  · exact absurd h (hp n)
  · exact h

/-- **Step.** The terms are kept. -/
theorem Terms.step (hclean : w.Clean) (h : Terms es w) {e : Event ι} (hnext : w.next e = some w') :
    Terms (es ++ [e]) w' := by
  cases moves_of_next hnext with
  | still hno => exact h.keep hno (fun _ _ hi => hi) fun _ hn => hn
  | connects | dangles =>
      refine h.keep (fun j hj => by cases hj) ?_ fun _ hn => hn
      intro j n
      exact leading_of_become fun _ hp => by cases hp
  | @acquires i n hphase hopen hgrants =>
      intro j m hj hm
      have hfree := hclean.free hphase hgrants
      have hmine : m = n := by
        unfold Server.Holds Server.tryAdvisoryLock at hm
        rw [become_server, if_pos hgrants, hfree] at hm
        cases List.mem_singleton.mp hm
        rfl
      subst hmine
      have hsame : j = i := by
        by_contra hne
        rw [become_phase, if_neg hne] at hj
        refine hne (hclean.apart j i m ?_ ?_)
        · rw [hj]
          rfl
        · rw [hphase]
          rfl
      subst hsame
      exact ⟨es, [], rfl, fun e he => absurd he List.not_mem_nil⟩
  | @takes i n hphase =>
      -- the lock that was granted without an answer is nobody's guard
      intro j m hj hm
      have hlead := leading_of_become (fun _ hp => by cases hp) hj
      have hne : m ≠ n := by
        intro heq
        subst heq
        have hsame := hclean.apart j i m (by rw [hlead]; rfl) (by rw [hphase]; rfl)
        subst hsame
        rw [hlead] at hphase
        cases hphase
      have hheld : w.server.Holds m := by
        unfold Server.Holds Server.tryAdvisoryLock at hm
        rw [become_server] at hm
        split at hm
        · rcases List.mem_cons.mp hm with heq | hold
          · exact absurd (Prod.mk.inj heq).1 hne
          · exact hold
        · exact hm
      obtain ⟨older, newer, rfl, hnewer⟩ := h j m hlead hheld
      refine ⟨older, newer ++ [.tryLock i (.failed true)], by simp, fun e he => ?_⟩
      rcases List.mem_append.mp he with hmem | hlast
      · exact hnewer e hmem
      · cases List.mem_singleton.mp hlast
        intro k hk
        cases hk
  | retreats hno =>
      exact h.keep hno (fun _ _ => leading_of_become fun _ hp => by cases hp) fun _ hn => hn
  | stops hno =>
      exact h.keep hno (fun _ _ => leading_of_become fun _ hp => by cases hp) fun _ hn => hn
  | releases =>
      refine h.keep (fun j hj => by cases hj) ?_ fun _ hn => List.mem_of_mem_erase hn
      intro j n
      exact leading_of_become fun _ hp => by cases hp
  | closes =>
      exact h.keep (fun j hj => by cases hj) (fun _ _ hi => hi)
        fun _ hn => List.mem_of_mem_filter hn

/-- **Runs.** In every run the terms hold. -/
theorem terms_run (hrun : (system ι).Run (.boot ι) es w) : Terms es w := by
  generalize hboot : World.boot ι = w₀ at hrun
  induction hrun with
  | nil =>
      subst hboot
      intro i n hi
      cases hi
  | snoc hrun hstep ih =>
      exact ih.step
        (clean_invariant ι _ ((TSys.Reachable.init hboot.symm).run hrun)) hstep

/-- A check that succeeds is of an instance that leads and holds the lock. -/
theorem check_holds (h : w.Clean) {i : ι} {finished : Bool}
    (hnext : w.next (.check i (.is true) finished) = some w') :
    ∃ n, w.phase i = .leading n ∧ w.server.Holds n := by
  simp only [World.next] at hnext
  split at hnext
  · next n b hphase hb =>
      cases hb
      split at hnext
      · next hheld => exact ⟨n, hphase, (h.is_held n).mp hheld.2⟩
      · cases hnext
  · next hb => cases hb
  · cases hnext

/-- **Leadership.** In every run of any number of instances:

* a session that holds the lock is the only one, and it is open;
* a health check succeeds only for the instance that was granted the lock last: whoever passes
  a check after another instance was granted the lock was granted it again in between;
* an instance is refused the lock only while another open session holds it, which is the guard
  of another instance or belongs to a connection nobody has any more;
* one release frees the lock of a guard. -/
theorem leadership_exclusive (hrun : (system ι).Run (.boot ι) es w) :
    (∀ n, w.server.Holds n → n ∈ w.server.sessions ∧ ∀ m, w.server.Holds m → m = n) ∧
    (∀ before i finished after, es = before ++ .check i (.is true) finished :: after →
      ∃ older newer, before = older ++ .tryLock i (.is true) :: newer ∧
        ∀ e ∈ newer, ∀ j, e ≠ .tryLock j (.is true)) ∧
    (∀ i w', w.next (.tryLock i (.is false)) = some w' →
      ∃ m ∈ w.server.sessions, w.server.Holds m ∧
        ((∃ j, j ≠ i ∧ (w.phase j).guard? = some m) ∨ ∀ j, (w.phase j).session? ≠ some m)) ∧
    (∀ i n, w.phase i = .stopping n → w.server.Holds n →
      ∀ m, ¬ (w.server.advisoryUnlock n schedulerAdvisoryLockKey).Holds m) := by
  have hclean : w.Clean := clean_invariant ι _ ((TSys.Reachable.init rfl).run hrun)
  refine ⟨fun n hn => ⟨hclean.holder_open hn, fun m hm => hclean.holder hm hn⟩, ?_, ?_, ?_⟩
  · rintro before i finished after rfl
    obtain ⟨w₁, hbefore, hrest⟩ := hrun.of_append
    obtain ⟨w₂, hcheck, _⟩ := hrest.of_cons
    have hclean₁ : w₁.Clean := clean_invariant ι _ ((TSys.Reachable.init rfl).run hbefore)
    obtain ⟨n, hphase, hheld⟩ := check_holds hclean₁ hcheck
    exact terms_run hbefore i n hphase hheld
  · intro i w' hnext
    simp only [World.next] at hnext
    split at hnext
    · next n b hphase hb =>
        cases hb
        split at hnext
        · next hrefused =>
            have hother := hrefused.2
            simp only [Server.grants, Bool.not_eq_false', List.any_eq_true, decide_eq_true_eq]
              at hother
            obtain ⟨⟨m, key⟩, hmem, hne, hkey⟩ := hother
            subst hkey
            refine ⟨m, hclean.holder_open hmem, hmem, ?_⟩
            by_cases hguard : ∃ j, (w.phase j).session? = some m
            · obtain ⟨j, hj⟩ := hguard
              left
              refine ⟨j, ?_, ?_⟩
              · intro heq
                subst heq
                rw [hphase] at hj
                exact hne (Option.some.inj hj).symm
              · cases hp : w.phase j with
                | standby =>
                    rw [hp] at hj
                    cases hj
                | asking k =>
                    rw [hp] at hj
                    cases hj
                    exact absurd hmem (hclean.asking j m hp)
                | leading k | stopping k =>
                    rw [hp] at hj
                    exact hj
            · exact Or.inr fun j hj => hguard ⟨j, hj⟩
        · cases hnext
    · next hb => cases hb
    · next hb => cases hb
    · cases hnext
  · intro i n _ hheld m hm
    unfold Server.Holds Server.advisoryUnlock at hm
    rcases hclean.sole with hfree | ⟨k, _, hsole⟩
    · rw [hfree] at hm
      cases hm
    · unfold Server.Holds at hheld
      rw [hsole] at hheld hm
      cases List.mem_singleton.mp hheld
      simp at hm

namespace Sample

/-- The server closes the session of the first leader, and another instance takes over. -/
def failover : List (Event Bool) :=
  [.connect false (.is true), .tryLock false (.is true), .check false (.is true) false, .close 0,
    .connect true (.is true), .tryLock true (.is true), .check false (.failed false) false,
    .check true (.is true) false]

end Sample

/-- The new leader passes its check, and was granted the lock last. -/
theorem leadership_exclusive_failover : ∃ w, (system Bool).Run (.boot Bool) Sample.failover w ∧
    w.server.Holds 1 ∧ (∀ m, w.server.Holds m → m = 1) ∧
    ∃ older newer, Sample.failover.take 7 = older ++ .tryLock true (.is true) :: newer ∧
      ∀ e ∈ newer, ∀ j, e ≠ .tryLock j (.is true) := by
  have hfinal : ((World.boot Bool).replay Sample.failover).map (·.server.granted) =
      some [(1, schedulerAdvisoryLockKey)] := rfl
  obtain ⟨w, hreplay, hgranted⟩ := Option.map_eq_some_iff.mp hfinal
  have hheld : w.server.Holds 1 := by
    unfold Server.Holds
    rw [hgranted]
    exact List.mem_singleton.mpr rfl
  obtain ⟨hsole, hterms, _⟩ := leadership_exclusive (run_of_replay hreplay)
  exact ⟨w, run_of_replay hreplay, hheld, (hsole 1 hheld).2, hterms _ true false [] rfl⟩

end RunAnywhere.Leader
