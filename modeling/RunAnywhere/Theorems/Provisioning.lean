import RunAnywhere.Logic.Trace
import RunAnywhere.Scheduler.Drift

/-!
# Provisioning converges

Schedulers that start together, in any order and with any failures, over a server that others
use as well:

* **later** — streams and consumers that are managed are created as wanted, move along the steps
  of `Scheduler.Drift` and are never deleted (`Server.Later`);
* **discipline** — between the read and the update of one scheduler the others move them along
  such steps only, so the update that was worked out still fits;
* **converged** — once one scheduler succeeded everything is as wanted, and stays so.
-/

namespace RunAnywhere.Topology

open Logic Machine RunAnywhere.Env

variable {ρ κ : Type} [Inhabited ρ] [Inhabited κ] {config : TopologyConfig}

/-! ## What is wanted -/

def desiredStreams (config : TopologyConfig) : List (String × StreamConfig ρ) :=
  [(jobQueueStream, desiredJobStream config), (jobDlqStream, desiredDlqStream config),
    (jobAdvisoryStream, desiredAdvisoryStream config)]

def desiredConsumers (config : TopologyConfig) : List ((String × String) × ConsumerConfig κ) :=
  [((jobQueueStream, jobDispatchConsumer), desiredJobConsumer config),
    ((jobAdvisoryStream, jobAdvisoryConsumer), desiredAdvisoryConsumer config)]

theorem nodup_streams (config : TopologyConfig) :
    ((desiredStreams config : List (String × StreamConfig ρ)).map Prod.fst).Nodup := by
  simp [desiredStreams, jobQueueStream, jobDlqStream, jobAdvisoryStream]

theorem nodup_consumers (κ : Type) [Inhabited κ] (config : TopologyConfig) :
    ((desiredConsumers config).map (@Prod.fst _ (ConsumerConfig κ))).Nodup := by
  simp [desiredConsumers, jobQueueStream, jobAdvisoryStream]

theorem desiredStreams_name {k : String} {d : StreamConfig ρ}
    (h : (k, d) ∈ desiredStreams config) : d.name = k := by
  simp only [desiredStreams, List.mem_cons, Prod.mk.injEq, List.not_mem_nil, or_false] at h
  rcases h with ⟨rfl, rfl⟩ | ⟨rfl, rfl⟩ | ⟨rfl, rfl⟩ <;> rfl

/-- A stream as wanted conforms, whatever window the server chooses. -/
theorem desiredStreams_conforms {k : String} {d : StreamConfig ρ}
    (h : (k, d) ∈ desiredStreams config) {broker : Broker ρ} (hb : broker.Lawful) :
    Conforms d (broker d) := by
  simp only [desiredStreams, List.mem_cons, Prod.mk.injEq, List.not_mem_nil, or_false] at h
  rcases h with ⟨rfl, rfl⟩ | ⟨rfl, rfl⟩ | ⟨rfl, rfl⟩ <;>
    exact StreamConfig.conforms_self rfl rfl rfl hb

theorem desiredConsumers_conforms {k : String × String} {d : ConsumerConfig κ}
    (h : (k, d) ∈ desiredConsumers config) : ConsumerConforms d d := by
  simp only [desiredConsumers, List.mem_cons, Prod.mk.injEq, List.not_mem_nil, or_false] at h
  rcases h with ⟨rfl, rfl⟩ | ⟨rfl, rfl⟩ <;>
    exact ConsumerConfig.conforms_self rfl rfl rfl rfl rfl

/-! ## Later -/

namespace Server

/-- What is managed and there is compatible. -/
structure Compatible (config : TopologyConfig) (s : Server ρ κ) : Prop where
  streams : ∀ k d, (k, d) ∈ desiredStreams config → ∀ a, s.streams.get? k = some a →
    Topology.Compatible d a
  consumers : ∀ k d, (k, d) ∈ desiredConsumers config → ∀ a, s.consumers.get? k = some a →
    ConsumerCompatible d a

/-- Everything is there and as wanted. -/
structure Provisioned (config : TopologyConfig) (s : Server ρ κ) : Prop where
  streams : ∀ k d, (k, d) ∈ desiredStreams config → (streamUpkeep ρ).Ready k d s.streams
  consumers : ∀ k d, (k, d) ∈ desiredConsumers config → (consumerUpkeep κ).Ready k d s.consumers

/-- What is managed is created as wanted, moves along steps and is never deleted. -/
structure Later (config : TopologyConfig) (s s' : Server ρ κ) : Prop where
  streams : (streamUpkeep ρ).Along (desiredStreams config) s.streams s'.streams
  consumers : (consumerUpkeep κ).Along (desiredConsumers config) s.consumers s'.consumers

variable {s s' s'' : Server ρ κ}

theorem Later.refl (config : TopologyConfig) (s : Server ρ κ) : s.Later config s :=
  ⟨Upkeep.Along.refl _ _, Upkeep.Along.refl _ _⟩

theorem Later.trans (h : s.Later config s') (h' : s'.Later config s'') : s.Later config s'' :=
  ⟨h.streams.trans h'.streams, h.consumers.trans h'.consumers⟩

theorem Later.compatible (h : s.Later config s') (hc : s.Compatible config) :
    s'.Compatible config := by
  constructor
  · intro k d hd b hb
    rcases h.streams.source hd hb with ⟨a, ha, hstep⟩ | hgood
    · exact StreamStep.compatible hstep (hc.streams k d hd a ha)
    · exact Conforms.compatible hgood
  · intro k d hd b hb
    rcases h.consumers.source hd hb with ⟨a, ha, hstep⟩ | hgood
    · exact ConsumerStep.compatible hstep (hc.consumers k d hd a ha)
    · exact ConsumerConforms.compatible hgood

theorem Later.provisioned (h : s.Later config s') (hp : s.Provisioned config) :
    s'.Provisioned config :=
  ⟨fun k d hd => h.streams.ready hd (hp.streams k d hd),
    fun k d hd => h.consumers.ready hd (hp.consumers k d hd)⟩

/-- A managed stream is written. -/
theorem Later.put_stream {k : String} {d a : StreamConfig ρ} (hd : (k, d) ∈ desiredStreams config)
    (h : (streamUpkeep ρ).Moves d (s.streams.get? k) (some a)) :
    s.Later config { s with streams := s.streams.put k a } :=
  ⟨Upkeep.Along.put (nodup_streams config) hd h, Upkeep.Along.refl _ _⟩

/-- A managed consumer is written. -/
theorem Later.put_consumer {k : String × String} {d a : ConsumerConfig κ}
    (hd : (k, d) ∈ desiredConsumers config)
    (h : (consumerUpkeep κ).Moves d (s.consumers.get? k) (some a)) :
    s.Later config { s with consumers := s.consumers.put k a } :=
  ⟨Upkeep.Along.refl _ _, Upkeep.Along.put (nodup_consumers κ config) hd h⟩

end Server

/-! ## Requests -/

/-- The requests a scheduler makes, with what makes them fit the server. -/
def Server.Allows (config : TopologyConfig) (s : Server ρ κ) : Call ρ κ → Prop
  | .getOrCreateStream d => (d.name, d) ∈ desiredStreams config
  | .updateStream u => ∃ d a a', (u.name, d) ∈ desiredStreams config ∧ u = a.managedBy d ∧
      Topology.Compatible d a ∧ s.streams.get? u.name = some a' ∧ StreamStep d a a'
  | .getStream k => ∃ a, s.streams.get? k = some a
  | .getOrCreateConsumer stream name d =>
      ((stream, name), d) ∈ desiredConsumers config ∧ ∃ a, s.streams.get? stream = some a
  | .updateConsumer stream name d => ((stream, name), d) ∈ desiredConsumers config ∧
      ∃ a, s.consumers.get? (stream, name) = some a ∧ ConsumerCompatible d a
  | .getConsumer stream name => ∃ a, s.consumers.get? (stream, name) = some a

variable {broker : Broker ρ} {s s' : Server ρ κ}

/-- A request that is carried out moves what is managed along steps. -/
theorem carry_later (hb : broker.Lawful) {x : Call ρ κ} (h : s.Allows config x) :
    s.Later config (x.carry broker s).2 := by
  cases x with
  | getOrCreateStream d =>
      simp only [Call.carry]
      split
      · exact .refl config s
      · next hnone =>
          refine .put_stream h ?_
          rw [hnone]
          exact desiredStreams_conforms h hb
  | updateStream u =>
      obtain ⟨d, a, a', hd, hu, hc, ha', hstep⟩ := h
      simp only [Call.carry, ha']
      refine .put_stream hd ?_
      rw [ha', hu]
      exact hstep.update hb hc
  | getStream k =>
      simp only [Call.carry]
      split <;> exact .refl config s
  | getOrCreateConsumer stream name d =>
      simp only [Call.carry]
      split
      · exact .refl config s
      · exact .refl config s
      · next hnone =>
          refine .put_consumer h.1 ?_
          rw [hnone]
          exact desiredConsumers_conforms h.1
  | updateConsumer stream name d =>
      obtain ⟨hd, a, ha, hc⟩ := h
      simp only [Call.carry, ha]
      refine .put_consumer hd ?_
      rw [ha]
      exact Or.inr ⟨hc, rfl, desiredConsumers_conforms hd⟩
  | getConsumer stream name =>
      simp only [Call.carry]
      split <;> exact .refl config s

/-- A request that fits the server is answered. -/
theorem carry_ok (broker : Broker ρ) {x : Call ρ κ} (h : s.Allows config x) :
    ∃ a, (x.carry broker s).1 = .ok a := by
  cases x with
  | getOrCreateStream d =>
      simp only [Call.carry]
      split
      · exact ⟨_, rfl⟩
      · exact ⟨_, rfl⟩
  | updateStream u =>
      obtain ⟨d, a, a', hd, hu, hc, ha', hstep⟩ := h
      simp only [Call.carry, ha']
      exact ⟨(), trivial⟩
  | getStream k =>
      obtain ⟨a, ha⟩ := h
      simp only [Call.carry, ha]
      exact ⟨(), trivial⟩
  | getOrCreateConsumer stream name d =>
      obtain ⟨_, a, ha⟩ := h
      simp only [Call.carry, ha]
      split
      · next hnone => cases hnone
      · exact ⟨_, rfl⟩
      · exact ⟨_, rfl⟩
  | updateConsumer stream name d =>
      obtain ⟨_, a, ha, _⟩ := h
      simp only [Call.carry, ha]
      exact ⟨(), trivial⟩
  | getConsumer stream name =>
      obtain ⟨a, ha⟩ := h
      simp only [Call.carry, ha]
      exact ⟨(), trivial⟩

/-! ## The discipline -/

/-- What schedulers share. On a `tame` start everything that was there is compatible. -/
def discipline (ρ κ : Type) [Inhabited ρ] [Inhabited κ] (config : TopologyConfig) (tame : Prop) :
    Discipline (Server ρ κ) (Call ρ κ) where
  inv s := s.Named ∧ (tame → s.Compatible config)
  later := Server.Later config
  cond _ _ := True
  allowed := Server.Allows config
  refl := Server.Later.refl config
  trans := Server.Later.trans

variable {tame : Prop} {faulty : Bool}

instance stable_named : (discipline ρ κ config tame).Stable Server.Named :=
  ⟨fun _ _ _ hi' _ _ => hi'.1⟩

variable (κ tame) in
/-- What is ready stays ready. -/
theorem stable_stream {k : String} {d : StreamConfig ρ} (hd : (k, d) ∈ desiredStreams config) :
    (discipline ρ κ config tame).Stable fun s => (streamUpkeep ρ).Ready k d s.streams :=
  ⟨fun _ _ _ _ hl h => hl.streams.ready hd h⟩

variable (ρ tame) in
theorem stable_consumer {k : String × String} {d : ConsumerConfig κ}
    (hd : (k, d) ∈ desiredConsumers config) :
    (discipline ρ κ config tame).Stable fun s => (consumerUpkeep κ).Ready k d s.consumers :=
  ⟨fun _ _ _ _ hl h => hl.consumers.ready hd h⟩

/-- A reading of a stream: the stream moved along steps since. -/
def Server.Read (s : Server ρ κ) (k : String) (d a : StreamConfig ρ) : Prop :=
  a.name = k ∧ ∃ a', s.streams.get? k = some a' ∧ StreamStep d a a'

variable (κ tame) in
theorem stable_read {k : String} {d : StreamConfig ρ} (hd : (k, d) ∈ desiredStreams config)
    (a : StreamConfig ρ) : (discipline ρ κ config tame).Stable fun s => s.Read k d a := by
  constructor
  rintro s s' _ _ hl ⟨hname, b, hb, hstep⟩
  obtain ⟨c, hc, hstep'⟩ := hl.streams.step hd hb
  exact ⟨hname, c, hc, hstep.trans hstep'⟩

/-- A reading of a consumer. -/
def Server.ReadConsumer (s : Server ρ κ) (k : String × String) (d a : ConsumerConfig κ) : Prop :=
  ∃ a', s.consumers.get? k = some a' ∧ ConsumerStep d a a'

variable (ρ tame) in
theorem stable_readConsumer {k : String × String} {d : ConsumerConfig κ}
    (hd : (k, d) ∈ desiredConsumers config) (a : ConsumerConfig κ) :
    (discipline ρ κ config tame).Stable fun s => s.ReadConsumer k d a := by
  constructor
  rintro s s' _ _ hl ⟨b, hb, hstep⟩
  obtain ⟨c, hc, hstep'⟩ := hl.consumers.step hd hb
  exact ⟨c, hc, hstep.trans hstep'⟩

/-! ## Triples -/

/-- The routine keeps to the discipline: from `P` it ends in `Q`, or fails with `E`. -/
abbrev Keeps (broker : Broker ρ) (faulty : Bool) (config : TopologyConfig) (tame : Prop)
    {ε β : Type} (E : ε → Prop) (P : Server ρ κ → Prop)
    (p : Routine (Call ρ κ) Call.Out ε β) (Q : β → Server ρ κ → Prop) : Prop :=
  OkTriple (machine broker faulty config) (discipline ρ κ config tame) E P p Q

/-- What a request does to the server. -/
theorem exec_cases {x : Call ρ κ} {r : x.Out}
    (h : (machine broker faulty config).Exec s x r s') :
    (r, s') = x.carry broker s ∨
      (faulty = true ∧ (∃ m, r = .error m) ∧ (s' = s ∨ s' = (x.carry broker s).2)) := by
  obtain ⟨fate, h⟩ := h
  cases fate with
  | done =>
      left
      cases faulty <;> exact (Option.some.inj h).symm
  | failed took message =>
      cases faulty with
      | false => cases h
      | true =>
          obtain ⟨rfl, rfl⟩ := Prod.mk.inj (Option.some.inj h)
          refine Or.inr ⟨rfl, ⟨message, rfl⟩, ?_⟩
          cases took with
          | false => exact Or.inl rfl
          | true => exact Or.inr rfl

/-- A request. It fails only when the server is faulty. -/
theorem keeps_request {P : Server ρ κ → Prop} [(discipline ρ κ config tame).Stable P]
    {x : Call ρ κ} {R : x.Ok → Server ρ κ → Prop}
    [hR : ∀ a, (discipline ρ κ config tame).Stable (R a)]
    (ha : ∀ s, (discipline ρ κ config tame).inv s → P s → s.Allows config x)
    (h : ∀ s a s', (discipline ρ κ config tame).inv s → P s → s'.Named →
      x.carry broker s = (.ok a, s') → R a s') :
    Keeps broker faulty config tame (fun _ => faulty = true) P (request x) R := by
  refine Triple.act (x := x) (fun (r : x.Out) s => (∀ a, r = Except.ok a → R a s) ∧
    ∀ e, r = Except.error e → faulty = true) (fun s hi _ hP => ha s hi hP) ?_
  intro s r s' hi _ hP hexec hi' _
  rcases exec_cases hexec with hcarry | ⟨hfaulty, ⟨m, rfl⟩, _⟩
  · obtain ⟨a, hok⟩ := carry_ok broker (ha s hi hP)
    rw [← hcarry] at hok
    subst hok
    refine ⟨fun b hb => ?_, fun e he => by cases he⟩
    cases hb
    exact h s _ s' hi hP hi'.1 hcarry.symm
  · exact ⟨fun a ha => (by cases ha), fun _ _ => hfaulty⟩

/-- A failure on a tame start is a request that failed, and the server is faulty. -/
def Excused (tame : Prop) (faulty : Bool) (e : TopologyError) : Prop :=
  tame → faulty = true ∧ ∃ resource message, e = .operation resource message

theorem Excused.operation {resource message : String} (h : faulty = true) :
    Excused tame faulty (.operation resource message) :=
  fun _ => ⟨h, resource, message, rfl⟩

/-- What `ensure_stream` does with the stream it read. -/
theorem keeps_reconcile (hb : broker.Lawful) {P : Server ρ κ → Prop}
    [(discipline ρ κ config tame).Stable P] {d a : StreamConfig ρ}
    (hd : (d.name, d) ∈ desiredStreams config) (hc : tame → Compatible d a) :
    Keeps broker faulty config tame (Excused tame faulty) (fun s => P s ∧ s.Read d.name d a)
      (do
        match ← Routine.ofExcept (reconciledStreamConfig a d d.name) with
        | some updated =>
            Routine.try_ (request (.updateStream updated)) (.operation d.name)
            Routine.try_ (request (.getStream d.name)) (.operation d.name)
        | none => pure ())
      fun _ s => (streamUpkeep ρ).Ready d.name d s.streams := by
  have hready := stable_stream κ tame hd
  have hread := stable_read κ tame hd
  refine OkTriple.bind (OkTriple.ofExcept ?_) fun out s hi hs => ?_
  · intro e he ht
    rw [reconciledStreamConfig_ok_iff.mpr ⟨hc ht, rfl⟩] at he
    cases he
  · obtain ⟨hcompat, hout⟩ := reconciledStreamConfig_ok_iff.mp hs.2
    have hname : a.name = d.name := hs.1.2.1
    refine (?_ : Keeps broker faulty config tame (Excused tame faulty)
      (fun s => P s ∧ s.Read d.name d a) _ _) s hi hs.1
    clear hs
    split at hout
    · next hequal =>
        subst hout
        refine OkTriple.pure fun s _ hP => ?_
        obtain ⟨_, a', ha', hstep⟩ := hP.2
        exact ⟨a', ha', hstep.conforms (conforms_of_managedEqual hcompat hequal)⟩
    · subst hout
      have hkey : (a.managedBy d).name = d.name := hname
      refine OkTriple.bind (R := fun _ s => (streamUpkeep ρ).Ready d.name d s.streams)
        (OkTriple.try_ (keeps_request ?_ ?_) fun _ => Excused.operation) fun _ => ?_
      · intro s _ hP
        obtain ⟨_, a', ha', hstep⟩ := hP.2
        exact ⟨d, a, a', hkey ▸ hd, rfl, hcompat, hkey ▸ ha', hstep⟩
      · intro s _ s' _ hP _ hcarry
        obtain ⟨_, a', ha', hstep⟩ := hP.2
        simp only [Call.carry, hkey, ha', Prod.mk.injEq] at hcarry
        obtain ⟨_, rfl⟩ := hcarry
        exact ⟨_, Table.get?_put_self _ _ _, StreamStep.conforms_managedBy hb hcompat⟩
      · refine OkTriple.try_ (keeps_request ?_ ?_) fun _ => Excused.operation
        · intro s _ hP
          obtain ⟨a', ha', _⟩ := hP.2
          exact ⟨a', ha'⟩
        · intro s _ s' _ hP _ hcarry
          obtain ⟨a', ha', hconforms⟩ := hP.2
          simp only [Call.carry, ha', Prod.mk.injEq] at hcarry
          obtain ⟨_, rfl⟩ := hcarry
          exact ⟨a', ha', hconforms⟩

/-- `ensure_stream` leaves the stream as wanted. -/
theorem keeps_ensureStream (hb : broker.Lawful) {P : Server ρ κ → Prop}
    [(discipline ρ κ config tame).Stable P] {k : String} {d : StreamConfig ρ}
    (hd : (k, d) ∈ desiredStreams config) :
    Keeps broker faulty config tame (Excused tame faulty) P (ensureStream d)
      fun _ s => (streamUpkeep ρ).Ready k d s.streams := by
  have hname : d.name = k := desiredStreams_name hd
  subst hname
  have hread := stable_read κ tame hd
  unfold ensureStream
  refine OkTriple.bind (R := fun a s => s.Read d.name d a ∧ (tame → Compatible d a))
    (OkTriple.try_ (keeps_request (fun s _ _ => hd) ?_) fun _ => Excused.operation) fun a => ?_
  · intro s a s' hi _ hn hcarry
    simp only [Call.carry] at hcarry
    split at hcarry
    · next hsome =>
        cases hcarry
        exact ⟨⟨hi.1 _ _ hsome, a, hsome, .refl a⟩, fun ht => (hi.2 ht).streams _ _ hd _ hsome⟩
    · cases hcarry
      have hnew : Table.get? (Table.put s.streams d.name (broker d)) d.name = some (broker d) :=
        Table.get?_put_self _ _ _
      exact ⟨⟨hn _ _ hnew, _, hnew, .refl _⟩, fun _ => (desiredStreams_conforms hd hb).compatible⟩
  · -- the reading stands, whatever others do before the update
    intro s hi hs
    exact keeps_reconcile hb hd hs.2.2 s hi ⟨hs.1, hs.2.1⟩

/-- `ensure_pull_consumer` leaves the consumer as wanted. -/
theorem keeps_ensurePullConsumer {P : Server ρ κ → Prop}
    [(discipline ρ κ config tame).Stable P] {stream name : String} {d : ConsumerConfig κ}
    (hd : ((stream, name), d) ∈ desiredConsumers config)
    (hstream : ∀ s, P s → ∃ a, s.streams.get? stream = some a) :
    Keeps broker faulty config tame (Excused tame faulty) P (ensurePullConsumer stream name d)
      fun _ s => (consumerUpkeep κ).Ready (stream, name) d s.consumers := by
  have hready := stable_consumer ρ tame hd
  have hread := stable_readConsumer ρ tame hd
  unfold ensurePullConsumer
  refine OkTriple.bind
    (R := fun a s => s.ReadConsumer (stream, name) d a ∧ (tame → ConsumerCompatible d a))
    (OkTriple.try_ (keeps_request (fun s _ hP => ⟨hd, hstream s hP⟩) ?_) fun _ =>
      Excused.operation) fun a => ?_
  · intro s a s' hi hP _ hcarry
    obtain ⟨_, ha⟩ := hstream s hP
    simp only [Call.carry, ha] at hcarry
    split at hcarry
    · next hnone => cases hnone
    · next hsome =>
        cases hcarry
        exact ⟨⟨a, hsome, .refl a⟩, fun ht => (hi.2 ht).consumers _ _ hd _ hsome⟩
    · cases hcarry
      exact ⟨⟨d, Table.get?_put_self _ _ _, .refl d⟩,
        fun _ => (desiredConsumers_conforms hd).compatible⟩
  · intro s hi hs
    have hc : tame → ConsumerCompatible d a := hs.2.2
    refine (?_ : Keeps broker faulty config tame (Excused tame faulty)
      (fun s => P s ∧ s.ReadConsumer (stream, name) d a) _ _) s hi ⟨hs.1, hs.2.1⟩
    refine OkTriple.bind (OkTriple.ofExcept ?_) fun out s hi hs => ?_
    · intro e he ht
      obtain ⟨_, hok⟩ := consumerNeedsUpdate_compatible (hc ht) name
      rw [hok] at he
      cases he
    · obtain ⟨hcompat, hnothing⟩ := consumerNeedsUpdate_ok hs.2
      refine (?_ : Keeps broker faulty config tame (Excused tame faulty)
        (fun s => P s ∧ s.ReadConsumer (stream, name) d a) _ _) s hi hs.1
      cases out with
      | true =>
          refine OkTriple.try_ (keeps_request ?_ ?_) fun _ => Excused.operation
          · intro s _ hP
            obtain ⟨a', ha', hstep⟩ := hP.2
            exact ⟨hd, a', ha', hstep.compatible hcompat⟩
          · intro s _ s' _ hP _ hcarry
            obtain ⟨a', ha', _⟩ := hP.2
            simp only [Call.carry, ha', Prod.mk.injEq] at hcarry
            obtain ⟨_, rfl⟩ := hcarry
            exact ⟨d, Table.get?_put_self _ _ _, desiredConsumers_conforms hd⟩
      | false =>
          refine OkTriple.try_ (keeps_request ?_ ?_) fun _ => Excused.operation
          · intro s _ hP
            obtain ⟨a', ha', _⟩ := hP.2
            exact ⟨a', ha'⟩
          · intro s _ s' _ hP _ hcarry
            obtain ⟨a', ha', hstep⟩ := hP.2
            simp only [Call.carry, ha', Prod.mk.injEq] at hcarry
            obtain ⟨_, rfl⟩ := hcarry
            exact ⟨a', ha', hstep.conforms (hnothing rfl)⟩

/-- `provision_topology` leaves everything as wanted. -/
theorem keeps_provisionTopology (hb : broker.Lawful)
    (htame : tame → validateConfig config = .ok ()) :
    Keeps broker faulty config tame (Excused tame faulty) (fun _ : Server ρ κ => True)
      (provisionTopology config) fun _ s => s.Provisioned config := by
  have hjob : (jobQueueStream, (desiredJobStream config : StreamConfig ρ))
      ∈ desiredStreams config := by
    simp [desiredStreams]
  have hdlq : (jobDlqStream, (desiredDlqStream config : StreamConfig ρ))
      ∈ desiredStreams config := by
    simp [desiredStreams]
  have hadvisory : (jobAdvisoryStream, (desiredAdvisoryStream config : StreamConfig ρ))
      ∈ desiredStreams config := by
    simp [desiredStreams]
  have hdispatch : ((jobQueueStream, jobDispatchConsumer),
      (desiredJobConsumer config : ConsumerConfig κ)) ∈ desiredConsumers config := by
    simp [desiredConsumers]
  have hrecovery : ((jobAdvisoryStream, jobAdvisoryConsumer),
      (desiredAdvisoryConsumer config : ConsumerConfig κ)) ∈ desiredConsumers config := by
    simp [desiredConsumers]
  have := stable_stream κ tame hjob
  have := stable_stream κ tame hdlq
  have := stable_stream κ tame hadvisory
  have := stable_consumer ρ tame hdispatch
  have := stable_consumer ρ tame hrecovery
  unfold provisionTopology
  refine OkTriple.bind (R := fun _ _ => True) (OkTriple.conseq (OkTriple.ofExcept ?_)
    (fun _ _ h => h) fun _ _ _ _ => trivial) fun _ => ?_
  · intro e he ht
    rw [htame ht] at he
    cases he
  refine OkTriple.bind (keeps_ensureStream hb hjob) fun _ => ?_
  refine OkTriple.bind (keeps_ensureStream hb hdlq) fun _ => ?_
  refine OkTriple.bind (keeps_ensureStream hb hadvisory) fun _ => ?_
  refine OkTriple.bind (keeps_ensurePullConsumer hdispatch ?_) fun _ => ?_
  · rintro s ⟨⟨⟨_, a, ha, _⟩, _⟩, _⟩
    exact ⟨a, ha⟩
  refine OkTriple.conseq (OkTriple.frame (keeps_ensurePullConsumer hrecovery ?_))
    (fun _ _ h => h) ?_
  · rintro s ⟨⟨_, a, ha, _⟩, _⟩
    exact ⟨a, ha⟩
  · rintro _ s _ ⟨⟨⟨⟨⟨_, h₁⟩, h₂⟩, h₃⟩, h₄⟩, h₅⟩
    constructor
    · intro k d hd
      simp only [desiredStreams, List.mem_cons, Prod.mk.injEq, List.not_mem_nil, or_false] at hd
      rcases hd with ⟨rfl, rfl⟩ | ⟨rfl, rfl⟩ | ⟨rfl, rfl⟩
      · exact h₁
      · exact h₂
      · exact h₃
    · intro k d hd
      simp only [desiredConsumers, List.mem_cons, Prod.mk.injEq, List.not_mem_nil, or_false] at hd
      rcases hd with ⟨rfl, rfl⟩ | ⟨rfl, rfl⟩
      · exact h₄
      · exact h₅

/-- Only what was compatible is brought in line. -/
theorem Server.Later.was_compatible (h : s.Later config s') (hp : s'.Provisioned config) :
    s.Compatible config := by
  constructor
  · intro k d hd a ha
    obtain ⟨b, hb, hstep⟩ := h.streams.step hd ha
    obtain ⟨c, hc, hgood⟩ := hp.streams k d hd
    rcases hstep with rfl | ⟨hcompat, _⟩
    · cases hb.symm.trans hc
      exact Conforms.compatible hgood
    · exact hcompat
  · intro k d hd a ha
    obtain ⟨b, hb, hstep⟩ := h.consumers.step hd ha
    obtain ⟨c, hc, hgood⟩ := hp.consumers k d hd
    rcases hstep with rfl | ⟨hcompat, _⟩
    · cases hb.symm.trans hc
      exact ConsumerConforms.compatible hgood
    · exact hcompat

/-! ## Every run -/

/-- Schedulers over a lawful server keep to the discipline. -/
theorem respects (κ : Type) [Inhabited κ] (hb : broker.Lawful) (faulty : Bool) (tame : Prop)
    (htame : tame → validateConfig config = .ok ()) :
    Machine.Respects (machine broker faulty config) (discipline ρ κ config tame)
      fun _ _ r s => (∀ u, r = .ok u → s.Provisioned config) ∧
        ∀ e, r = .error e → Excused tame faulty e where
  act s x r s' hi _ hallows hexec := by
    have hkeep : s' = s ∨ s' = (x.carry broker s).2 := by
      rcases exec_cases hexec with hcarry | ⟨_, _, hcases⟩
      · exact Or.inr (congrArg Prod.snd hcarry)
      · exact hcases
    have hlater : s.Later config s' := by
      rcases hkeep with rfl | rfl
      · exact .refl config _
      · exact carry_later hb hallows
    refine ⟨⟨?_, fun ht => hlater.compatible (hi.2 ht)⟩, hlater⟩
    rcases hkeep with rfl | rfl
    · exact hi.1
    · exact carry_named broker hb x hi.1
  env s e s' hi he := by
    have hlater : s'.Named ∧ s.Later config s' := by
      simp only [machine, Server.other] at he
      split at he
      · next other =>
          split at he
          · cases he
          · next hother =>
              cases he
              exact ⟨hi.1.put rfl, Upkeep.Along.put_other hother other, Upkeep.Along.refl _ _⟩
      · next stream name other =>
          split at he
          · cases he
          · next hother =>
              cases he
              exact ⟨hi.1, Upkeep.Along.refl _ _, Upkeep.Along.put_other hother other⟩
    exact ⟨⟨hlater.1, fun ht => hlater.2.compatible (hi.2 ht)⟩, hlater.2⟩
  crash s hi := ⟨hi, .refl config s⟩
  spawn s _ hi _ := keeps_provisionTopology hb htame s hi trivial

/-- **Provisioning.** Any number of schedulers with one configuration start over a server that
others use as well, though not under the managed names, in any interleaving, and may die at any
time:

* a managed stream that was there is still there; it is untouched, or it was compatible and only
  its managed fields have changed, to what is wanted;
* a managed consumer that was there is still there; it is untouched, or it was compatible and is
  now the wanted one as a whole, with the fields that nobody compares and the form of its filter;
* once one scheduler succeeded everything is there and as wanted, whatever happens after;
* a scheduler succeeds only if everything that was there was compatible;
* a scheduler with a valid configuration, over what is compatible, fails only because a request
  failed. -/
theorem provisioning_converges (hb : broker.Lawful) {start : Server ρ κ} (hstart : start.Named)
    {p : Pool (Server ρ κ) (Call ρ κ) Call.Out Unit (Except TopologyError Unit)}
    {cs : List (Cmd Unit Fate (Other ρ κ))}
    (hrun : ((machine broker faulty config).system (· = start) fun _ _ => True).Run
      ⟨start, []⟩ cs p) :
    ((∀ k d, (k, d) ∈ desiredStreams config → ∀ a, start.streams.get? k = some a →
        ∃ b, p.state.streams.get? k = some b ∧ (b = a ∨
          (Compatible d a ∧ Conforms d b ∧ b = a.managedBy b))) ∧
      ∀ k d, (k, d) ∈ desiredConsumers config → ∀ a, start.consumers.get? k = some a →
        ∃ b, p.state.consumers.get? k = some b ∧ (b = a ∨ (ConsumerCompatible d a ∧ b = d))) ∧
    (∀ th ∈ p.threads, th.rest = .done (.ok ()) →
      start.Compatible config ∧
      ∀ cs' p', ((machine broker faulty config).system (· = start) fun _ _ => True).Run p cs' p' →
        p'.state.Provisioned config) ∧
    (validateConfig config = .ok () → start.Compatible config →
      ∀ th ∈ p.threads, ∀ e, th.rest = .done (.error e) →
        faulty = true ∧ ∃ resource message, e = .operation resource message) := by
  have hrespects := respects κ hb faulty
    (validateConfig config = .ok () ∧ start.Compatible config) fun h => h.1
  have hinit : ∀ s : Server ρ κ, s = start →
      (discipline ρ κ config (validateConfig config = .ok () ∧ start.Compatible config)).inv s := by
    rintro _ rfl
    exact ⟨hstart, fun h => h.2⟩
  have hboot : ((machine broker faulty config).system (· = start) fun _ _ => True).Reachable
      ⟨start, []⟩ := .init ⟨rfl, rfl⟩
  have hreach := hboot.run hrun
  have hlater : start.Later config p.state := hrespects.run_later hinit hboot hrun
  refine ⟨⟨?_, ?_⟩, ?_, ?_⟩
  · intro k d hd a ha
    obtain ⟨b, hb', hstep⟩ := hlater.streams.step hd ha
    refine ⟨b, hb', ?_⟩
    rcases hstep with heq | ⟨hcompat, hkept, hconforms⟩
    · exact Or.inl heq
    · exact Or.inr ⟨hcompat, hconforms, hkept.symm⟩
  · intro k d hd a ha
    obtain ⟨b, hb', hstep⟩ := hlater.consumers.step hd ha
    refine ⟨b, hb', ?_⟩
    rcases hstep with heq | ⟨hcompat, heq, _⟩
    · exact Or.inl heq
    · exact Or.inr ⟨hcompat, heq⟩
  · intro th hth hdone
    have hprovisioned : p.state.Provisioned config :=
      (hrespects.finished hinit hreach hth hdone).1 () rfl
    refine ⟨hlater.was_compatible hprovisioned, fun cs' p' hrun' => ?_⟩
    have hlater' : p.state.Later config p'.state := hrespects.run_later hinit hreach hrun'
    exact hlater'.provisioned hprovisioned
  · intro hvalid hcompat th hth e hfailed
    exact (hrespects.finished hinit hreach hth hfailed).2 e rfl ⟨hvalid, hcompat⟩

namespace Sample

/-- A window of two minutes where none is asked for. -/
def chooses : Broker Unit := fun c =>
  { c with duplicateWindow := if c.duplicateWindow = 0 then 120000000000 else c.duplicateWindow }

theorem chooses_lawful : chooses.Lawful where
  keeps _ := rfl
  window _ hc := if_neg hc

def topology : TopologyConfig where
  jobStreamMaxBytes := 1073741824
  dlqStreamMaxBytes := 268435456
  advisoryStreamMaxBytes := 67108864
  streamReplicas := 1
  dlqRetention := 604800
  advisoryRetention := 86400
  ackWait := 30
  maxDeliver := 4
  maxAckPending := 1024
  pullBatchSize := 32

/-- The job stream is there, smaller than wanted. -/
def smaller : StreamConfig Unit :=
  { desiredJobStream topology with maxBytes := 1024, description := none }

def start : Server Unit Unit where
  streams := Table.empty.put jobQueueStream smaller
  consumers := Table.empty

theorem start_named : start.Named := by
  intro k a ha
  simp only [start, Table.get?_put, Table.get?_empty] at ha
  split at ha
  · next hk =>
      cases ha
      exact hk.symm
  · cases ha

/-- Two schedulers read the stream. The update of the first is carried out, and its answer is
lost; the second goes on. -/
def race : List (Cmd Unit Fate (Other Unit Unit)) :=
  [.spawn (), .spawn (), .act 0 .done, .act 1 .done, .act 0 (.failed true "timed out")] ++
    List.replicate 10 (.act 1 .done)

def outcome? (th : Thread (Server Unit Unit) (Call Unit Unit) Call.Out Unit
    (Except TopologyError Unit)) : Option (Except TopologyError Unit) :=
  match th.rest with
  | .done r => some r
  | .act _ _ => none

end Sample

/-- The second scheduler succeeds, and the stream is as wanted. -/
theorem provisioning_converges_race :
    ∃ p, ((machine Sample.chooses true Sample.topology).system (· = Sample.start)
        fun _ _ => True).Run ⟨Sample.start, []⟩ Sample.race p ∧
      p.threads.map Sample.outcome? =
        [some (.error (.operation jobQueueStream "timed out")), some (.ok ())] ∧
      Sample.start.Compatible Sample.topology ∧ p.state.Provisioned Sample.topology := by
  have hfinal : ((machine Sample.chooses true Sample.topology).replay ⟨Sample.start, []⟩
      Sample.race).map (fun p => p.threads.map Sample.outcome?) =
        some [some (.error (.operation jobQueueStream "timed out")), some (.ok ())] := by
    decide +kernel
  obtain ⟨p, hreplay, houtcomes⟩ := Option.map_eq_some_iff.mp hfinal
  have hrun : ((machine Sample.chooses true Sample.topology).system (· = Sample.start)
      fun _ _ => True).Run ⟨Sample.start, []⟩ Sample.race p := replay_run _ hreplay
  have hsuccess : some (Except.ok ()) ∈ p.threads.map Sample.outcome? := by
    rw [houtcomes]
    exact List.mem_cons_of_mem _ List.mem_cons_self
  obtain ⟨th, hth, hdone⟩ := List.mem_map.mp hsuccess
  have hrest : th.rest = .done (.ok ()) := by
    unfold Sample.outcome? at hdone
    split at hdone
    · next heq =>
        cases hdone
        exact heq
    · cases hdone
  obtain ⟨_, hconverges, _⟩ :=
    provisioning_converges Sample.chooses_lawful Sample.start_named hrun
  obtain ⟨hcompat, hstays⟩ := hconverges th hth hrest
  exact ⟨p, hrun, houtcomes, hcompat, hstays [] p (.nil p)⟩

end RunAnywhere.Topology
