import Mathlib.Data.List.Nodup
import Mathlib.Logic.Function.Basic
import RunAnywhere.Logic.TSys

/-!
# Leadership

`scheduler/src/leader.rs` and the supervisor of `scheduler/src/service.rs`: instances compete
for one session-level advisory lock of PostgreSQL.

* **server** — the open sessions and the granted locks. A session that holds a lock may be
  granted it once more, and a session that ends loses its locks;
* **instances** — an instance opens a session, asks for the lock on it, leads while its health
  checks succeed, and releases. Every query may fail, before or after it took effect, and a
  connection that was dropped stays open at the server until the server closes it;
* **clean** — `World.Clean`: what keeps the queries of `LeaderGuard`, which name no session and
  no key they were granted, exact.
-/

namespace RunAnywhere

open Logic

namespace Leader

/-- `SCHEDULER_ADVISORY_LOCK_KEY` (`RAA_SCHD` in ASCII). -/
def schedulerAdvisoryLockKey : Int := 0x5241415F53434844

/-! ## The server -/

/-- The open sessions and the granted session-level advisory locks: a lock is listed as often
as it was granted. Sessions are numbered as they are opened. -/
structure Server where
  sessions : List Nat
  granted : List (Nat × Int)
  opened : Nat
  deriving DecidableEq

namespace Server

/-- A new session. -/
def connect (s : Server) : Server :=
  { s with sessions := s.opened :: s.sessions, opened := s.opened + 1 }

/-- The answer of `pg_try_advisory_lock(key)` on session `n`: no when another session holds
the lock. -/
def grants (s : Server) (n : Nat) (key : Int) : Bool :=
  !s.granted.any fun g => g.1 ≠ n ∧ g.2 = key

/-- The server after `pg_try_advisory_lock(key)`. -/
def tryAdvisoryLock (s : Server) (n : Nat) (key : Int) : Server :=
  if s.grants n key then { s with granted := (n, key) :: s.granted } else s

/-- `EXISTS` of a granted advisory lock with `pid = pg_backend_pid()`, whatever its key. -/
def existsAdvisoryLock (s : Server) (n : Nat) : Bool := s.granted.any fun g => g.1 = n

/-- `pg_advisory_unlock(key)` on session `n`: one grant is taken back. -/
def advisoryUnlock (s : Server) (n : Nat) (key : Int) : Server :=
  { s with granted := s.granted.erase (n, key) }

/-- The session ends, and its locks with it. -/
def close (s : Server) (n : Nat) : Server :=
  { s with sessions := s.sessions.filter (· ≠ n), granted := s.granted.filter (·.1 ≠ n) }

/-- Session `n` holds the lock of the scheduler. -/
def Holds (s : Server) (n : Nat) : Prop := (n, schedulerAdvisoryLockKey) ∈ s.granted

end Server

/-! ## The instances -/

/-- Where the supervisor of an instance is: between two attempts, in `try_acquire` with a
session, in `run_leader_cycle` with a guard, or at the end of the cycle before `release`. -/
inductive Phase
  | standby
  | asking (session : Nat)
  | leading (session : Nat)
  | stopping (session : Nat)
  deriving DecidableEq

/-- The session of a guard. -/
def Phase.guard? : Phase → Option Nat
  | .leading n | .stopping n => some n
  | _ => none

/-- The session an instance has a connection to. -/
def Phase.session? : Phase → Option Nat
  | .standby => none
  | .asking n | .leading n | .stopping n => some n

/-- Why `run_leader_cycle` stops at a health tick: the answer of `is_held`, and whether the
control plane has ended. -/
def stopReason (held : Except String Bool) (controlFinished : Bool) : Option String :=
  match held, controlFinished with
  | .ok true, false => none
  | .ok true, true => some "worker control plane exited unexpectedly"
  | .ok false, _ => some "PostgreSQL advisory lock was lost"
  | .error e, _ => some s!"leadership session failed: {e}"

/-- How a query went: the server's answer, or a failure before or after it took effect. -/
inductive Answer
  | is (b : Bool)
  | failed (took : Bool)
  deriving DecidableEq

/-- The server and the instances. -/
structure World (ι : Type) where
  server : Server
  phase : ι → Phase

/-- What happens next. `abandon` drops whatever connection an instance has: it crashed, its
task was cancelled, or a part of the leader could not be started. -/
inductive Event (ι : Type)
  | connect (i : ι) (answer : Answer)
  | tryLock (i : ι) (answer : Answer)
  | check (i : ι) (answer : Answer) (controlFinished : Bool)
  | stop (i : ι)
  | abandon (i : ι)
  | release (i : ι) (answer : Answer)
  | close (n : Nat)

namespace World

variable {ι : Type} [DecidableEq ι]

/-- Instance `i` goes on to `p`. -/
def become (w : World ι) (i : ι) (p : Phase) (server : Server) : World ι :=
  ⟨server, Function.update w.phase i p⟩

/-- The world after an event, `none` when it is impossible. -/
def next (w : World ι) : Event ι → Option (World ι)
  | .connect i answer =>
      match w.phase i, answer with
      | .standby, .is true => some (w.become i (.asking w.server.opened) w.server.connect)
      | .standby, .failed true => some (w.become i .standby w.server.connect)
      | .standby, .failed false => some w
      | _, _ => none
  | .tryLock i answer =>
      match w.phase i, answer with
      | .asking n, .is b =>
          if n ∈ w.server.sessions ∧ w.server.grants n schedulerAdvisoryLockKey = b then
            some (w.become i (if b then .leading n else .standby)
              (w.server.tryAdvisoryLock n schedulerAdvisoryLockKey))
          else none
      | .asking n, .failed true =>
          if n ∈ w.server.sessions then
            some (w.become i .standby (w.server.tryAdvisoryLock n schedulerAdvisoryLockKey))
          else none
      | .asking _, .failed false => some (w.become i .standby w.server)
      | _, _ => none
  | .check i answer controlFinished =>
      match w.phase i, answer with
      | .leading n, .is b =>
          if n ∈ w.server.sessions ∧ w.server.existsAdvisoryLock n = b then
            match stopReason (.ok b) controlFinished with
            | none => some w
            | some _ => some (w.become i (.stopping n) w.server)
          else none
      | .leading n, .failed _ => some (w.become i (.stopping n) w.server)
      | _, _ => none
  | .stop i =>
      match w.phase i with
      | .leading n => some (w.become i (.stopping n) w.server)
      | _ => none
  | .abandon i => some (w.become i .standby w.server)
  | .release i answer =>
      match w.phase i, answer with
      | .stopping _, .failed false => some (w.become i .standby w.server)
      | .stopping n, _ =>
          if n ∈ w.server.sessions then
            some (w.become i .standby (w.server.advisoryUnlock n schedulerAdvisoryLockKey))
          else none
      | _, _ => none
  | .close n => if n ∈ w.server.sessions then some ⟨w.server.close n, w.phase⟩ else none

end World

/-- A fresh server. -/
def World.boot (ι : Type) : World ι := ⟨⟨[], [], 0⟩, fun _ => .standby⟩

/-- Any number of instances over a fresh server. -/
def system (ι : Type) [DecidableEq ι] : TSys (World ι) (Event ι) where
  init w := w = .boot ι
  step w e w' := w.next e = some w'

/-- The world after a list of events. -/
def World.replay {ι : Type} [DecidableEq ι] (w : World ι) : List (Event ι) → Option (World ι)
  | [] => some w
  | e :: es => (w.next e).bind fun w' => w'.replay es

theorem run_of_replay {ι : Type} [DecidableEq ι] {w w' : World ι} {es : List (Event ι)}
    (h : w.replay es = some w') : (system ι).Run w es w' := by
  induction es generalizing w with
  | nil =>
      cases h
      exact .nil _
  | cons e es ih =>
      obtain ⟨w₁, hnext, hrest⟩ := Option.bind_eq_some_iff.mp h
      exact (TSys.Run.single hnext).append (ih hrest)

/-! ## What a step does -/

section Steps

variable {ι : Type} [DecidableEq ι] {w w' : World ι} {e : Event ι} {i j : ι} {n : Nat}

@[simp] theorem World.become_server (p : Phase) (server : Server) :
    (w.become i p server).server = server := rfl

theorem World.become_phase (p : Phase) (server : Server) (j : ι) :
    (w.become i p server).phase j = if j = i then p else w.phase j :=
  Function.update_apply _ _ _ _

/-- The instance was told that it has the lock. -/
def Event.Acquires (i : ι) (e : Event ι) : Prop := e = .tryLock i (.is true)

/-- **Steps.** What an event does to the server and to one instance. -/
inductive Moves (w : World ι) : Event ι → World ι → Prop
  | still {e : Event ι} (hno : ∀ i, ¬ e.Acquires i) : Moves w e w
  | connects {i : ι} (hphase : w.phase i = .standby) :
      Moves w (.connect i (.is true)) (w.become i (.asking w.server.opened) w.server.connect)
  | dangles {i : ι} (hphase : w.phase i = .standby) :
      Moves w (.connect i (.failed true)) (w.become i .standby w.server.connect)
  | acquires {i : ι} {n : Nat} (hphase : w.phase i = .asking n) (hopen : n ∈ w.server.sessions)
      (hgrants : w.server.grants n schedulerAdvisoryLockKey = true) :
      Moves w (.tryLock i (.is true)) (w.become i (.leading n)
        (w.server.tryAdvisoryLock n schedulerAdvisoryLockKey))
  | takes {i : ι} {n : Nat} (hphase : w.phase i = .asking n) (hopen : n ∈ w.server.sessions) :
      Moves w (.tryLock i (.failed true)) (w.become i .standby
        (w.server.tryAdvisoryLock n schedulerAdvisoryLockKey))
  | retreats {e : Event ι} {i : ι} (hno : ∀ j, ¬ e.Acquires j) :
      Moves w e (w.become i .standby w.server)
  | stops {e : Event ι} {i : ι} {n : Nat} (hno : ∀ j, ¬ e.Acquires j)
      (hphase : w.phase i = .leading n) :
      Moves w e (w.become i (.stopping n) w.server)
  | releases {answer : Answer} {i : ι} {n : Nat} (hphase : w.phase i = .stopping n) :
      Moves w (.release i answer) (w.become i .standby
        (w.server.advisoryUnlock n schedulerAdvisoryLockKey))
  | closes {n : Nat} : Moves w (.close n) ⟨w.server.close n, w.phase⟩

theorem moves_of_next (h : w.next e = some w') : Moves w e w' := by
  cases e with
  | connect i answer =>
      simp only [World.next] at h
      split at h
      · next hphase => cases h; exact .connects hphase
      · next hphase => cases h; exact .dangles hphase
      · cases h; exact .still fun j hj => by cases hj
      · cases h
  | tryLock i answer =>
      simp only [World.next] at h
      split at h
      · next n b hphase =>
          split at h
          · next hgrants =>
              cases h
              cases b with
              | true => exact .acquires hphase hgrants.1 hgrants.2
              | false =>
                  have hkept : w.server.tryAdvisoryLock n schedulerAdvisoryLockKey = w.server := by
                    unfold Server.tryAdvisoryLock
                    rw [hgrants.2]
                    rfl
                  rw [hkept]
                  exact .retreats fun j hj => by cases hj
          · cases h
      · next n hphase =>
          split at h
          · next hopen => cases h; exact .takes hphase hopen
          · cases h
      · cases h; exact .retreats fun j hj => by cases hj
      · cases h
  | check i answer controlFinished =>
      simp only [World.next] at h
      split at h
      · next n b hphase =>
          split at h
          · split at h
            · cases h; exact .still fun j hj => by cases hj
            · cases h; exact .stops (fun j hj => by cases hj) hphase
          · cases h
      · next n took hphase => cases h; exact .stops (fun j hj => by cases hj) hphase
      · cases h
  | stop i =>
      simp only [World.next] at h
      split at h
      · next n hphase => cases h; exact .stops (fun j hj => by cases hj) hphase
      · cases h
  | abandon i => cases h; exact .retreats fun j hj => by cases hj
  | release i answer =>
      simp only [World.next] at h
      split at h
      · cases h; exact .retreats fun j hj => by cases hj
      · next n hphase _ =>
          split at h
          · cases h; exact .releases hphase
          · cases h
      · cases h
  | close n =>
      simp only [World.next] at h
      split at h
      · cases h; exact .closes
      · cases h

end Steps

/-! ## The invariant -/

/-- One grant at most, of the lock of the scheduler, on a session that is open; no two
instances share a session, and an instance that asks for the lock does not hold it. -/
structure World.Clean {ι : Type} (w : World ι) : Prop where
  sole : w.server.granted = [] ∨
    ∃ n ∈ w.server.sessions, w.server.granted = [(n, schedulerAdvisoryLockKey)]
  opened : ∀ n ∈ w.server.sessions, n < w.server.opened
  known : ∀ i n, (w.phase i).session? = some n → n < w.server.opened
  apart : ∀ i j n, (w.phase i).session? = some n → (w.phase j).session? = some n → i = j
  asking : ∀ i n, w.phase i = .asking n → ¬ w.server.Holds n

namespace World

variable {ι : Type} {w w' : World ι} {i j : ι} {m n : Nat}

namespace Clean

/-- A lock is granted when nobody holds it. -/
theorem free (h : w.Clean) (hphase : w.phase i = .asking n)
    (hgrants : w.server.grants n schedulerAdvisoryLockKey = true) : w.server.granted = [] := by
  rcases h.sole with hfree | ⟨m, _, hheld⟩
  · exact hfree
  · have hne : m ≠ n := by
      intro heq
      subst heq
      refine h.asking i m hphase ?_
      show _ ∈ w.server.granted
      rw [hheld]
      exact List.mem_singleton.mpr rfl
    simp [Server.grants, hheld, hne] at hgrants

/-- Two sessions that hold the lock are one. -/
theorem holder (h : w.Clean) (hm : w.server.Holds m) (hn : w.server.Holds n) : m = n := by
  unfold Server.Holds at hm hn
  rcases h.sole with hfree | ⟨k, _, hheld⟩
  · rw [hfree] at hm
    cases hm
  · rw [hheld] at hm hn
    cases List.mem_singleton.mp hm
    cases List.mem_singleton.mp hn
    rfl

/-- A session that holds the lock is open. -/
theorem holder_open (h : w.Clean) (hn : w.server.Holds n) : n ∈ w.server.sessions := by
  unfold Server.Holds at hn
  rcases h.sole with hfree | ⟨k, hopen, hheld⟩
  · rw [hfree] at hn
    cases hn
  · rw [hheld] at hn
    cases List.mem_singleton.mp hn
    exact hopen

/-- `is_held` tells whether the session holds the lock of the scheduler. -/
theorem is_held (h : w.Clean) (n : Nat) :
    w.server.existsAdvisoryLock n = true ↔ w.server.Holds n := by
  unfold Server.existsAdvisoryLock Server.Holds
  rcases h.sole with hfree | ⟨k, _, hheld⟩
  · simp [hfree]
  · simp [hheld, eq_comm]

end Clean

variable [DecidableEq ι]

/-- The sessions of the instances after one of them goes on: it keeps the session it had, or
has none. -/
theorem become_session {p : Phase} {server : Server}
    (hkeeps : p.session? = none ∨ p.session? = (w.phase i).session?)
    (h : ((w.become i p server).phase j).session? = some n) : (w.phase j).session? = some n := by
  rw [become_phase] at h
  split at h
  · next heq =>
      subst heq
      rcases hkeeps with hnone | hsame
      · rw [hnone] at h
        cases h
      · rw [← hsame]
        exact h
  · exact h

/-- The server of a clean world after any of its queries. -/
theorem Clean.become (h : w.Clean) {i : ι} {p : Phase} {server : Server}
    (hkeeps : p.session? = none ∨ p.session? = (w.phase i).session?)
    (hsole : server.granted = [] ∨
      ∃ n ∈ server.sessions, server.granted = [(n, schedulerAdvisoryLockKey)])
    (hopened : ∀ n ∈ server.sessions, n < server.opened) (hlater : w.server.opened ≤ server.opened)
    (hasking : ∀ j n, (w.become i p server).phase j = .asking n → ¬ server.Holds n) :
    (w.become i p server).Clean where
  sole := hsole
  opened := hopened
  known j n hj := Nat.lt_of_lt_of_le (h.known j n (become_session hkeeps hj)) hlater
  apart j k n hj hk := h.apart j k n (become_session hkeeps hj) (become_session hkeeps hk)
  asking := hasking

/-- **Step.** Every event keeps the world clean. -/
theorem Clean.step (h : w.Clean) {e : Event ι} (hnext : w.next e = some w') : w'.Clean := by
  -- an instance that asks after it went on asked before
  have hstill {i : ι} {p : Phase} {server : Server} (hp : ∀ n, p ≠ .asking n) {j : ι} {n : Nat}
      (hj : (w.become i p server).phase j = .asking n) : j ≠ i ∧ w.phase j = .asking n := by
    rw [become_phase] at hj
    split at hj
    · exact absurd hj (hp n)
    · next hne => exact ⟨hne, hj⟩
  have hlost {i : ι} {n : Nat} (hphase : w.phase i = .asking n) (hopen : n ∈ w.server.sessions)
      {p : Phase} (hp : ∀ n, p ≠ .asking n)
      (hkeeps : p.session? = none ∨ p.session? = (w.phase i).session?) :
      (w.become i p (w.server.tryAdvisoryLock n schedulerAdvisoryLockKey)).Clean := by
    unfold Server.tryAdvisoryLock
    split
    · next hgrants =>
        have hfree := h.free hphase hgrants
        refine h.become hkeeps (Or.inr ⟨n, hopen, by rw [hfree]⟩) h.opened (Nat.le_refl _) ?_
        intro j m hj hheld
        obtain ⟨hne, hj⟩ := hstill hp hj
        unfold Server.Holds at hheld
        rw [hfree] at hheld
        cases List.mem_singleton.mp hheld
        refine hne (h.apart j i n ?_ ?_)
        · rw [hj]
          rfl
        · rw [hphase]
          rfl
    · exact h.become hkeeps h.sole h.opened (Nat.le_refl _)
        fun j m hj => h.asking j m (hstill hp hj).2
  cases moves_of_next hnext with
  | still => exact h
  | @connects i hphase =>
      have hfresh : ¬ w.server.Holds w.server.opened := fun hheld =>
        Nat.lt_irrefl _ (h.opened _ (h.holder_open hheld))
      have hnew {j : ι} {n : Nat} (hj : ((w.become i (.asking w.server.opened)
          w.server.connect).phase j).session? = some n) :
          (j = i ∧ n = w.server.opened) ∨ (w.phase j).session? = some n := by
        rw [become_phase] at hj
        split at hj
        · next heq => exact Or.inl ⟨heq, (Option.some.inj hj).symm⟩
        · exact Or.inr hj
      refine ⟨?_, ?_, ?_, ?_, ?_⟩
      · rcases h.sole with hfree | ⟨k, hopen, hheld⟩
        · exact Or.inl hfree
        · exact Or.inr ⟨k, List.mem_cons_of_mem _ hopen, hheld⟩
      · intro n hn
        rcases List.mem_cons.mp hn with rfl | hold
        · exact Nat.lt_succ_self _
        · exact Nat.lt_succ_of_lt (h.opened n hold)
      · intro j n hj
        rcases hnew hj with ⟨_, rfl⟩ | hold
        · exact Nat.lt_succ_self _
        · exact Nat.lt_succ_of_lt (h.known j n hold)
      · intro j k n hj hk
        rcases hnew hj with ⟨rfl, rfl⟩ | hoj
        · rcases hnew hk with ⟨rfl, _⟩ | hok
          · rfl
          · exact absurd (h.known k _ hok) (Nat.lt_irrefl _)
        · rcases hnew hk with ⟨rfl, rfl⟩ | hok
          · exact absurd (h.known j _ hoj) (Nat.lt_irrefl _)
          · exact h.apart j k n hoj hok
      · intro j n hj
        rw [become_phase] at hj
        split at hj
        · cases hj
          exact hfresh
        · exact h.asking j n hj
  | dangles =>
      refine h.become (Or.inl rfl) ?_ ?_ (Nat.le_succ _) ?_
      · rcases h.sole with hfree | ⟨k, hopen, hheld⟩
        · exact Or.inl hfree
        · exact Or.inr ⟨k, List.mem_cons_of_mem _ hopen, hheld⟩
      · intro n hn
        rcases List.mem_cons.mp hn with rfl | hold
        · exact Nat.lt_succ_self _
        · exact Nat.lt_succ_of_lt (h.opened n hold)
      · exact fun j n hj => h.asking j n (hstill (fun _ hp => by cases hp) hj).2
  | acquires hphase hopen =>
      exact hlost hphase hopen (fun _ hp => by cases hp) (Or.inr (by rw [hphase]; rfl))
  | takes hphase hopen => exact hlost hphase hopen (fun _ hp => by cases hp) (Or.inl rfl)
  | retreats =>
      exact h.become (Or.inl rfl) h.sole h.opened (Nat.le_refl _)
        fun j n hj => h.asking j n (hstill (fun _ hp => by cases hp) hj).2
  | stops _ hphase =>
      exact h.become (Or.inr (by rw [hphase]; rfl)) h.sole h.opened (Nat.le_refl _)
        fun j n hj => h.asking j n (hstill (fun _ hp => by cases hp) hj).2
  | @releases _ i n hphase =>
      refine h.become (Or.inl rfl) ?_ h.opened (Nat.le_refl _) ?_
      · rcases h.sole with hfree | ⟨k, hopen, hheld⟩
        · exact Or.inl (by simp [Server.advisoryUnlock, hfree])
        · by_cases heq : k = n
          · exact Or.inl (by simp [Server.advisoryUnlock, hheld, heq])
          · exact Or.inr ⟨k, hopen, by simp [Server.advisoryUnlock, hheld, heq]⟩
      · intro j m hj hheld
        exact h.asking j m (hstill (fun _ hp => by cases hp) hj).2 (List.mem_of_mem_erase hheld)
  | @closes n =>
      refine ⟨?_, ?_, h.known, h.apart, ?_⟩
      · rcases h.sole with hfree | ⟨k, hopen, hheld⟩
        · exact Or.inl (by simp [Server.close, hfree])
        · by_cases heq : k = n
          · exact Or.inl (by simp [Server.close, hheld, heq])
          · exact Or.inr ⟨k, List.mem_filter.mpr ⟨hopen, by simpa using heq⟩,
              by simp [Server.close, hheld, heq]⟩
      · exact fun m hm => h.opened m (List.mem_of_mem_filter hm)
      · exact fun j m hj hheld => h.asking j m hj (List.mem_of_mem_filter hheld)

/-- **Invariant.** Every reachable world is clean. -/
theorem clean_invariant (ι : Type) [DecidableEq ι] :
    (system ι).Invariant (Clean (ι := ι)) := by
  refine TSys.Inductive.invariant ⟨?_, fun _ _ _ _ h hstep => h.step hstep⟩
  rintro _ rfl
  refine ⟨Or.inl rfl, fun n hn => absurd hn List.not_mem_nil, ?_, ?_, ?_⟩
  · intro i n hi
    cases hi
  · intro i j n hi
    cases hi
  · intro i n hi
    cases hi

end World

end Leader

end RunAnywhere
