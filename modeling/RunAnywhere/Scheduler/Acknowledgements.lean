import RunAnywhere.Logic.Journal
import RunAnywhere.Scheduler.Discipline

/-!
# The users of the acknowledgement registry

`acknowledgements cfg` runs the operations of `AckRegistry` against each other: the two
binds of the dispatcher, which is one task, and any number of `confirm_ack`, `progress`,
`take` and `nak` calls of the control plane and the reconciler.

* **calls** — `AckCall.Permits` says which action a call performs after which of its steps
  (`permits_prog`);
* **interleaving** — every action of a call is a step of its own, as every `await` lets
  others run; the rest of the cluster moves freely between two steps;
* **the registry** — `access_cases` says what one action does to the bindings.
-/

namespace RunAnywhere

open Logic

/-- A use of the registry: under a job, a worker and a lease. `claimed` is the bind of
`dispatch_one` after a claim, `rounds` bounds the loop of a thread that does not stop in
it. -/
inductive AckCall
  | claimed (j : JobId) (w : WorkerId) (l : LeaseId) (n : Nat)
  | bindOrAckDuplicate (j : JobId) (w : WorkerId) (l : LeaseId) (n : Nat)
  | confirmAck (rounds : Nat) (j : JobId) (w : WorkerId) (l : LeaseId)
  | progress (j : JobId) (w : WorkerId) (l : LeaseId)
  | take (j : JobId) (w : WorkerId) (l : LeaseId)
  | nak (j : JobId) (w : WorkerId) (l : LeaseId)
  deriving DecidableEq

/-- What a use of the registry comes to. -/
inductive AckReport
  | dispatcher (result : Except DispatcherError Unit)
  | answered (result : Except AckRegistryError Unit)
  | taken (result : Except AckRegistryError AckBinding)

namespace AckCall

def jobId : AckCall → JobId
  | claimed j _ _ _ | bindOrAckDuplicate j _ _ _ | confirmAck _ j _ _ | progress j _ _
  | take j _ _ | nak j _ _ => j

def workerId : AckCall → WorkerId
  | claimed _ w _ _ | bindOrAckDuplicate _ w _ _ | confirmAck _ _ w _ | progress _ w _
  | take _ w _ | nak _ w _ => w

def leaseId : AckCall → LeaseId
  | claimed _ _ l _ | bindOrAckDuplicate _ _ l _ | confirmAck _ _ _ l | progress _ _ l
  | take _ _ l | nak _ _ l => l

/-- A call of the dispatcher task. -/
def isDispatcher : AckCall → Bool
  | claimed _ _ _ _ | bindOrAckDuplicate _ _ _ _ => true
  | _ => false

def reporting {ε α : Type} (report : Except ε α → AckReport) (p : TaskOr ε α) : Task AckReport :=
  Prog.bind p fun r => .done (report r)

/-- The program of a call. -/
def prog : AckCall → Task AckReport
  | claimed j w l n => reporting .dispatcher (.lift (AckRegistry.bind j ⟨w, l, n⟩))
  | bindOrAckDuplicate j w l n => reporting .dispatcher (Dispatcher.bindOrAckDuplicate j w l n)
  | confirmAck rounds j w l => reporting .answered (AckRegistry.confirmAck rounds j w l)
  | progress j w l => reporting .answered (AckRegistry.progress j w l)
  | take j w l => reporting .taken (AckRegistry.take j w l)
  | nak j w l => reporting .answered (AckRegistry.nak j w l)

end AckCall

/-- A call, numbered among all calls. -/
structure AckCaller where
  number : Nat
  call : AckCall
  deriving DecidableEq

/-! ## What a call does -/

/-- The step told of binding `b` of a job, under a lease. -/
def Tells (j : JobId) (w : WorkerId) (l : LeaseId) (b : AckBinding) (step : Σ x, Action.Res x) :
    Prop :=
  step = ⟨.memory (.binding j w l), .ok b⟩ ∨
    ∃ n, step = ⟨.memory (.settle j w l n), .ok (some b)⟩

/-- A look at the binding of the lease, and the double acknowledgement of an older one. -/
def Compared (j : JobId) (w : WorkerId) (l : LeaseId) (n : Nat) (past : List (Σ x, Action.Res x)) :
    Prop :=
  ∃ found rest, past = ⟨.memory (.binding j w l), found⟩ :: rest ∧
    (∀ step ∈ rest, ∃ m, step.1 = .stream (.doubleAck m)) ∧
    ∀ b, found = .ok b → b.streamSequence ≤ n ∧ (b.streamSequence < n →
      ∃ answer, (⟨.stream (.doubleAck b.streamSequence), answer⟩ : Σ x, Action.Res x) ∈ rest)

/-- The server confirmed sequence `n` right after a step that told of the binding with it. -/
def Confirmed (j : JobId) (w : WorkerId) (l : LeaseId) (n : Nat)
    (past : List (Σ x, Action.Res x)) : Prop :=
  ∃ front told b, past = front ++ [told, ⟨.stream (.doubleAck n), .ok ()⟩] ∧
    Tells j w l b told ∧ b.streamSequence = n

namespace AckCall

/-- The actions of a call, given its steps so far. -/
def Permits (past : List (Σ x, Action.Res x)) : AckCall → Action → Prop
  | claimed j w l n, x => x = .memory (.bind j ⟨w, l, n⟩)
  | bindOrAckDuplicate j w l n, x =>
      x = .memory (.binding j w l) ∨
      (∃ m, x = .stream (.doubleAck m)) ∨
      (x = .memory (.bind j ⟨w, l, n⟩) ∧ Compared j w l n past) ∨
      x = .stream (.progress n)
  | confirmAck _ j w l, x =>
      x = .memory (.binding j w l) ∨
      (∃ front told b, past = front ++ [told] ∧ Tells j w l b told ∧
        x = .stream (.doubleAck b.streamSequence)) ∨
      (∃ n, x = .memory (.settle j w l n) ∧ Confirmed j w l n past) ∨
      x = .stop
  | progress j w l, x =>
      x = .memory (.binding j w l) ∨
      ∃ b, past = [⟨.memory (.binding j w l), .ok b⟩] ∧ x = .stream (.progress b.streamSequence)
  | take j w l, x => x = .memory (.take j w l)
  | nak j w l, x =>
      x = .memory (.take j w l) ∨
      ∃ b, past = [⟨.memory (.take j w l), .ok b⟩] ∧ x = .stream (.nak b.streamSequence)

/-- What a call has done when it ends: `confirm_ack` succeeds after a confirmation, once its
binding is gone. -/
def Ended (past : List (Σ x, Action.Res x)) (c : AckCall) (r : AckReport) : Prop :=
  ∀ rounds j w l, c = .confirmAck rounds j w l → r = .answered (.ok ()) →
    ∃ front n, past = front ++ [⟨.memory (.settle j w l n), .ok none⟩] ∧ Confirmed j w l n front

end AckCall

section Programs

variable {j : JobId} {w : WorkerId} {l : LeaseId} {n : Nat} {past : List (Σ x, Action.Res x)}

/-- The paths of a call. -/
abbrev Performs {α : Type} (c : AckCall) (Q : α → List (Σ x, Action.Res x) → Prop) (p : Task α)
    (past : List (Σ x, Action.Res x)) : Prop :=
  Prog.Along (fun past x => c.Permits past x) Q p past

theorem bindOrAckDuplicate_performs :
    Performs (.bindOrAckDuplicate j w l n) (fun _ _ => True)
      (Dispatcher.bindOrAckDuplicate j w l n) [] := by
  -- the bind and the progress report, after the comparison
  have hbind : ∀ past, Compared j w l n past →
      Performs (.bindOrAckDuplicate j w l n) (fun (_ : Except DispatcherError Unit) _ => True)
        (do AckRegistry.bind j ⟨w, l, n⟩; Dispatcher.progress n : TaskOr DispatcherError Unit)
        past := by
    intro past hcompared
    refine Prog.Along.andThen (Prog.Along.lift ?_)
    refine ⟨Or.inr (Or.inr (Or.inl ⟨rfl, hcompared⟩)), fun _ => ?_⟩
    exact Prog.Along.try_ ⟨Or.inr (Or.inr (Or.inr rfl)), fun _ => trivial⟩
  unfold Dispatcher.bindOrAckDuplicate
  refine Prog.Along.andThen (Prog.Along.attempt ⟨Or.inl rfl, fun found => ?_⟩)
  cases found with
  | error e =>
      refine hbind _ ⟨.error e, [], rfl, fun _ hs => absurd hs List.not_mem_nil, fun b hb => ?_⟩
      cases hb
  | ok existing =>
      simp only [Prog.Along]
      split
      · refine Prog.Along.lift ?_
        exact ⟨Or.inr (Or.inl ⟨n, rfl⟩), fun _ => trivial⟩
      · next hnewer =>
          split
          · next holder =>
              refine Prog.Along.andThen (Prog.Along.lift ?_)
              refine ⟨Or.inr (Or.inl ⟨_, rfl⟩), fun answer => ?_⟩
              refine hbind _ ⟨.ok existing,
                [⟨.stream (.doubleAck existing.streamSequence), answer⟩], rfl,
                fun step hs => ?_, fun b hb => ?_⟩
              · obtain rfl := List.mem_singleton.mp hs
                exact ⟨_, rfl⟩
              · obtain rfl := Except.ok.inj hb
                exact ⟨Nat.le_of_lt holder, fun _ => ⟨answer, List.mem_singleton_self _⟩⟩
          · next hsame =>
              refine hbind _ ⟨.ok existing, [], rfl, fun _ hs => absurd hs List.not_mem_nil,
                fun b hb => ?_⟩
              obtain rfl := Except.ok.inj hb
              exact ⟨Nat.le_of_not_lt hnewer, fun hlt => absurd hlt hsame⟩

/-- The loop of `confirm_ack`, after a step that told of its binding. -/
theorem confirmLoop_performs (rounds limit : Nat) {b : AckBinding}
    (hpast : ∃ front told, past = front ++ [told] ∧ Tells j w l b told) :
    Performs (.confirmAck limit j w l) (fun r past => r = .ok () →
        ∃ front n, past = front ++ [⟨.memory (.settle j w l n), .ok none⟩] ∧
          Confirmed j w l n front)
      (AckRegistry.confirmLoop j w l rounds b) past := by
  induction rounds generalizing b past with
  | zero => exact ⟨Or.inr (Or.inr (Or.inr rfl)), fun e => by cases e⟩
  | succ rounds ih =>
      obtain ⟨front, told, rfl, htells⟩ := hpast
      refine Prog.Along.andThen (Prog.Along.try_
        ⟨Or.inr (Or.inl ⟨front, told, b, rfl, htells, rfl⟩), fun r => ?_⟩)
      cases r with
      | error e => exact fun h => by cases h
      | ok _ =>
          have hconfirmed : Confirmed j w l b.streamSequence
              ((front ++ [told]) ++ [⟨.stream (.doubleAck b.streamSequence), .ok ()⟩]) :=
            ⟨front, told, b, List.append_assoc _ _ _, htells, rfl⟩
          refine Prog.Along.andThen ⟨Or.inr (Or.inr (Or.inl ⟨_, rfl, hconfirmed⟩)), fun r => ?_⟩
          cases r with
          | error e => exact fun h => by cases h
          | ok current =>
              cases current with
              | none => exact fun _ => ⟨_, _, rfl, hconfirmed⟩
              | some b' => exact ih ⟨_, _, rfl, Or.inr ⟨_, rfl⟩⟩

/-- **Programs.** Every call performs only what it is permitted. -/
theorem permits_prog (c : AckCall) : Performs c (fun r past => c.Ended past r) c.prog [] := by
  have hother : ∀ (r : AckReport) past, (∀ rounds j w l, c ≠ .confirmAck rounds j w l) →
      c.Ended past r := fun _ _ hne rounds j w l h => absurd h (hne rounds j w l)
  cases c with
  | claimed j w l n => exact ⟨rfl, fun _ => hother _ _ fun _ _ _ _ h => by cases h⟩
  | bindOrAckDuplicate j w l n =>
      refine Prog.Along.bind (bindOrAckDuplicate_performs.mono fun r past _ => ?_)
      exact hother _ _ fun _ _ _ _ h => by cases h
  | confirmAck rounds j w l =>
      refine Prog.Along.bind (Prog.Along.mono (Q := fun r past => r = .ok () →
        ∃ front n, past = front ++ [⟨.memory (.settle j w l n), .ok none⟩] ∧
          Confirmed j w l n front) (fun r past h => ?_) ?_)
      · intro _ _ _ _ hcall hr
        obtain ⟨rfl, rfl, rfl, rfl⟩ := AckCall.confirmAck.inj hcall
        exact h (AckReport.answered.inj hr)
      · refine Prog.Along.andThen ⟨Or.inl rfl, fun r => ?_⟩
        cases r with
        | error e => exact fun h => by cases h
        | ok b => exact confirmLoop_performs rounds rounds ⟨[], _, rfl, Or.inl rfl⟩
  | progress j w l =>
      have hend : ∀ (r : Except AckRegistryError Unit) past,
          AckCall.Ended past (.progress j w l) (.answered r) := fun r past =>
        hother _ _ fun _ _ _ _ h => by cases h
      refine Prog.Along.bind (Prog.Along.mono (Q := fun _ _ => True)
        (fun r past _ => hend r past) ?_)
      refine Prog.Along.andThen ⟨Or.inl rfl, fun r => ?_⟩
      cases r with
      | error e => trivial
      | ok b => exact Prog.Along.try_ ⟨Or.inr ⟨b, rfl, rfl⟩, fun _ => trivial⟩
  | take j w l => exact ⟨rfl, fun _ => hother _ _ fun _ _ _ _ h => by cases h⟩
  | nak j w l =>
      have hend : ∀ (r : Except AckRegistryError Unit) past,
          AckCall.Ended past (.nak j w l) (.answered r) := fun r past =>
        hother _ _ fun _ _ _ _ h => by cases h
      refine Prog.Along.bind (Prog.Along.mono (Q := fun _ _ => True)
        (fun r past _ => hend r past) ?_)
      refine Prog.Along.andThen ⟨Or.inl rfl, fun r => ?_⟩
      cases r with
      | error e => trivial
      | ok b => exact Prog.Along.try_ ⟨Or.inr ⟨b, rfl, rfl⟩, fun _ => trivial⟩

end Programs

/-- **The users of the registry.** Between two actions the rest of the cluster is replaced by
any other. -/
def acknowledgements (cfg : Config) :
    Machine Cluster Action Action.Res AckCaller AckReport Choice Cluster where
  perform := Action.perform
  prog i := i.call.prog
  enabled _ _ := true
  survives _ := false
  env s e := some { e with memory := { e.memory with registry := s.memory.registry } }
  crash s := { s with memory := cfg.memory }

/-- The calls of the dispatcher come one after the other, from an empty registry on. -/
def acknowledging (cfg : Config) :
    TSys (Journaled Cluster Action Action.Res AckCaller AckReport)
      (Cmd AckCaller Choice Cluster) :=
  (acknowledgements cfg).journaled (fun i => i.call.isDispatcher)
    fun s => s.memory.registry = Table.empty

abbrev AckRecord := Record Cluster Action Action.Res AckCaller

/-- The binding of a job. -/
def Cluster.bound (s : Cluster) (j : JobId) : Option AckBinding := s.memory.registry.get? j

/-! ## The registry -/

variable {cfg : Config} {s s' : Cluster}

theorem exchange_memory (fate : Fate) (f : WorkQueue → WorkQueue) :
    (s.exchange fate f).memory = s.memory := by
  unfold Cluster.exchange
  split
  · rfl
  · rfl

/-- An exchange with JetStream leaves the memory alone. -/
theorem stream_memory (c : Choice) (x : StreamCall) : (x.run s c).2.memory = s.memory := by
  cases x with
  | publish m => exact exchange_memory _ _
  | publishDead m => rfl
  | doubleAck n => exact exchange_memory _ _
  | term n => exact exchange_memory _ _
  | progress n => rfl
  | nak n => rfl
  | deleteMessage n =>
      simp only [StreamCall.run]
      split
      · exact exchange_memory _ _
      · split
        · exact exchange_memory _ _
        · rfl
  | getRawMessage n =>
      simp only [StreamCall.run]
      split
      · split
        · split
          · rfl
          · rfl
        · rfl
      · rfl

/-- Only an access to the memory touches the registry. -/
theorem registry_kept {x : Action} {r : x.Res} (h : (machine cfg).Exec s x r s')
    (hx : ∀ y, x ≠ .memory y) : s'.memory.registry = s.memory.registry := by
  cases x with
  | query q => rw [(exec_query h).1]
  | call op =>
      rcases exec_call h with ⟨rfl, _⟩ | ⟨t, answer, hexec, _⟩
      · rfl
      · rw [(execute_eq hexec).2.2]
  | stream y =>
      obtain ⟨c, hrun⟩ := exec_stream h
      have hmemory : (y.run s c).2.memory = s.memory := stream_memory c y
      rw [hrun] at hmemory
      rw [hmemory]
  | memory y => exact absurd rfl (hx y)
  | outside y => rw [exec_outside h]
  | stop => cases r

theorem take_effect (m : LeaderMemory) (j : JobId) (w : WorkerId) (l : LeaseId) :
    ((MemoryCall.take j w l).run m).2.registry = m.registry ∨
      ∃ b, m.registry.get? j = some b ∧ b.workerId = w ∧ b.leaseId = l ∧
        ((MemoryCall.take j w l).run m).2.registry = m.registry.erase j := by
  simp only [MemoryCall.run]
  split
  · next b hfound =>
      obtain ⟨hget, hworker, hlease⟩ := binding_found hfound
      exact Or.inr ⟨b, hget, hworker, hlease, rfl⟩
  · exact Or.inl rfl

theorem settle_effect (m : LeaderMemory) (j : JobId) (w : WorkerId) (l : LeaseId) (n : Nat) :
    ((MemoryCall.settle j w l n).run m).2.registry = m.registry ∨
      ∃ b, m.registry.get? j = some b ∧ b.workerId = w ∧ b.leaseId = l ∧ b.streamSequence = n ∧
        ((MemoryCall.settle j w l n).run m).2.registry = m.registry.erase j := by
  simp only [MemoryCall.run]
  split
  · exact Or.inl rfl
  · next b hget =>
      split
      · next hfor =>
          obtain ⟨hworker, hlease⟩ := AckBinding.isFor_iff.mp hfor
          split
          · next hsame => exact Or.inr ⟨b, hget, hworker, hlease, hsame, rfl⟩
          · exact Or.inl rfl
      · exact Or.inl rfl

/-- The check of `confirm_ack` leaves a binding it tells of. -/
theorem settle_kept {m : LeaderMemory} {j : JobId} {w : WorkerId} {l : LeaseId} {n : Nat}
    {b : AckBinding} (h : ((MemoryCall.settle j w l n).run m).1 = .ok (some b)) :
    ((MemoryCall.settle j w l n).run m).2 = m := by
  simp only [MemoryCall.run] at h ⊢
  split
  · rfl
  · next current hget =>
      rw [hget] at h
      simp only at h
      split at h
      · next hfor =>
          rw [if_pos hfor]
          split at h
          · cases h
          · next hne => rw [if_neg hne]
      · next hfor => rw [if_neg hfor]

theorem take_taken {m : LeaderMemory} {j : JobId} {w : WorkerId} {l : LeaseId} {b : AckBinding}
    (h : ((MemoryCall.take j w l).run m).1 = .ok b) :
    m.registry.get? j = some b ∧ b.workerId = w ∧ b.leaseId = l ∧
      ((MemoryCall.take j w l).run m).2.registry = m.registry.erase j := by
  simp only [MemoryCall.run] at h ⊢
  split at h
  · next found hfound =>
      obtain rfl := Except.ok.inj h
      obtain ⟨hget, hworker, hlease⟩ := binding_found hfound
      exact ⟨hget, hworker, hlease, rfl⟩
  · cases h

/-- The check of `confirm_ack` succeeds when the job is unbound. -/
theorem settle_gone {m : LeaderMemory} {j : JobId} {w : WorkerId} {l : LeaseId} {n : Nat}
    (h : ((MemoryCall.settle j w l n).run m).1 = .ok none) :
    ((MemoryCall.settle j w l n).run m).2.registry.get? j = none := by
  simp only [MemoryCall.run] at h ⊢
  split
  · next hget => exact hget
  · next current hget =>
      rw [hget] at h
      simp only at h
      split at h
      · next hfor =>
          rw [if_pos hfor]
          split at h
          · next hsame =>
              rw [if_pos hsame]
              show (m.registry.erase j).get? j = none
              rw [Table.get?_erase, if_pos rfl]
          · cases h
      · cases h

/-- **Accesses.** A permitted action leaves the registry alone, binds, or removes a binding of
the lease of its call. -/
theorem access_cases {c : AckCall} {past : List (Σ x, Action.Res x)} {x : Action} {r : x.Res}
    (hpermits : c.Permits past x) (h : (acknowledgements cfg).Exec s x r s') :
    s'.memory.registry = s.memory.registry ∨
      (∃ j w l n, x = .memory (.bind j ⟨w, l, n⟩) ∧
        s'.memory.registry = s.memory.registry.put j ⟨w, l, n⟩ ∧
        (c = .claimed j w l n ∨ (c = .bindOrAckDuplicate j w l n ∧ Compared j w l n past))) ∨
      (∃ j b, s.bound j = some b ∧ s'.memory.registry = s.memory.registry.erase j ∧
        (c = .take j b.workerId b.leaseId ∨ c = .nak j b.workerId b.leaseId ∨
          ∃ rounds, c = .confirmAck rounds j b.workerId b.leaseId ∧
            Confirmed j b.workerId b.leaseId b.streamSequence past)) := by
  have hmachine : (machine cfg).Exec s x r s' := h
  have hstream : ∀ y, x = .stream y → s'.memory.registry = s.memory.registry := by
    rintro y rfl
    exact registry_kept hmachine fun z hz => by cases hz
  have hlook : ∀ j w l, x = .memory (.binding j w l) →
      s'.memory.registry = s.memory.registry := by
    rintro j w l rfl
    rw [(exec_memory hmachine).2]
    rfl
  have hbind : ∀ j b, x = .memory (.bind j b) →
      s'.memory.registry = s.memory.registry.put j b := by
    rintro j b rfl
    rw [(exec_memory hmachine).2]
    rfl
  have htake : ∀ j w l, x = .memory (.take j w l) → s'.memory.registry = s.memory.registry ∨
      ∃ b, s.bound j = some b ∧ b.workerId = w ∧ b.leaseId = l ∧
        s'.memory.registry = s.memory.registry.erase j := by
    rintro j w l rfl
    rw [(exec_memory hmachine).2]
    exact take_effect s.memory j w l
  cases c with
  | claimed j w l n =>
      exact Or.inr (Or.inl ⟨j, w, l, n, hpermits, hbind j _ hpermits, Or.inl rfl⟩)
  | bindOrAckDuplicate j w l n =>
      rcases hpermits with hx | ⟨m, hx⟩ | ⟨hx, hcompared⟩ | hx
      · exact Or.inl (hlook j w l hx)
      · exact Or.inl (hstream _ hx)
      · exact Or.inr (Or.inl ⟨j, w, l, n, hx, hbind j _ hx, Or.inr ⟨rfl, hcompared⟩⟩)
      · exact Or.inl (hstream _ hx)
  | confirmAck rounds j w l =>
      rcases hpermits with hx | ⟨_, _, _, _, _, hx⟩ | ⟨n, rfl, hconfirmed⟩ | rfl
      · exact Or.inl (hlook j w l hx)
      · exact Or.inl (hstream _ hx)
      · rw [(exec_memory hmachine).2]
        rcases settle_effect s.memory j w l n with hsame | ⟨b, hget, rfl, rfl, rfl, herase⟩
        · exact Or.inl hsame
        · exact Or.inr (Or.inr ⟨j, b, hget, herase, Or.inr (Or.inr ⟨rounds, rfl, hconfirmed⟩)⟩)
      · cases r
  | progress j w l =>
      rcases hpermits with hx | ⟨_, _, hx⟩
      · exact Or.inl (hlook j w l hx)
      · exact Or.inl (hstream _ hx)
  | take j w l =>
      rcases htake j w l hpermits with hsame | ⟨b, hget, rfl, rfl, herase⟩
      · exact Or.inl hsame
      · exact Or.inr (Or.inr ⟨j, b, hget, herase, Or.inl rfl⟩)
  | nak j w l =>
      rcases hpermits with hx | ⟨_, _, hx⟩
      · rcases htake j w l hx with hsame | ⟨b, hget, rfl, rfl, herase⟩
        · exact Or.inl hsame
        · exact Or.inr (Or.inr ⟨j, b, hget, herase, Or.inr (Or.inl rfl)⟩)
      · exact Or.inl (hstream _ hx)

end RunAnywhere
