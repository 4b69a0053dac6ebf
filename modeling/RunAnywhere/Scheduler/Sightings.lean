import RunAnywhere.Scheduler.Sweep

/-!
# First sightings

What the map of `observe_runtime_ownership` knows after any number of passes:

* **passes** — a history is made of traces of `reconcile_runtimes` in which the database, the
  inventory and everything else answer as they like (`Passes`);
* **within a pass** — an entry is of this pass, or was not refuted by it (`Tracks.observe`);
* **between passes** — an entry is evidence: since its time every pass that listed anything
  found the runtime without its lease (`Passes.recalls`).
-/

namespace RunAnywhere

open Logic Prog

/-! ## Observations -/

/-- What a pass found out about one runtime. -/
abbrev Finding := RuntimeResource × RuntimeOwnership

/-- The listed runtimes with what their lookups came to, as far as they came. -/
def findings (listed : List RuntimeResource) (steps : List Step) : List Finding :=
  (listed.zip (lookups steps)).map fun x => (x.1, x.1.ownership x.2)

/-- A pass of `reconcile_runtimes`, as far as it came. -/
structure RuntimePass where
  at_ : Time
  steps : List Step

namespace RuntimePass

/-- The inventory of the pass, if it succeeded. -/
def listed? (pass : RuntimePass) : Option (List RuntimeResource) :=
  (inventories pass.steps).head?.bind Except.toOption

def findings (pass : RuntimePass) : List Finding :=
  RunAnywhere.findings (pass.listed?.getD []) pass.steps

/-- If its inventory succeeded, the pass found this very runtime without its lease. -/
def Finds (pass : RuntimePass) (r : RuntimeResource) : Prop :=
  pass.listed?.isSome → ∃ ownership, (r, ownership) ∈ pass.findings ∧ ownership.isUnsafe = true

/-- The pass found no runtime of that identifier, another one, an active matching lease or an
unknown owner. -/
def Restarts (pass : RuntimePass) (r : RuntimeResource) : Prop :=
  ∃ listed, pass.listed? = some listed ∧ ((∀ x ∈ listed, x.resourceId ≠ r.resourceId) ∨
    ∃ f ∈ pass.findings, f.1.resourceId = r.resourceId ∧ (f.1 ≠ r ∨ f.2.isUnsafe = false))

end RuntimePass

/-- Whatever was found under the identifier of the runtime is the runtime, without its lease. -/
def Steady (r : RuntimeResource) (found : List Finding) : Prop :=
  ∀ f ∈ found, f.1.resourceId = r.resourceId → f.1 = r ∧ f.2.isUnsafe = true

/-- The runtime was found without its lease, and nothing else since. -/
def Started (r : RuntimeResource) (found : List Finding) : Prop :=
  ∃ before ownership after, found = before ++ (r, ownership) :: after ∧
    ownership.isUnsafe = true ∧ Steady r after

/-- The passes since time `t₀` found the runtime without its lease. -/
def Evidence (passes : List RuntimePass) (r : RuntimeResource) (t₀ : Time) : Prop :=
  ∃ since, since <:+ passes ∧ since.head?.map (·.at_) = some t₀ ∧
    (∀ pass ∈ since, pass.Finds r) ∧ ∀ pass ∈ since.tail, Steady r pass.findings

/-- Within a pass at time `t`: the first sighting of the runtime is one of this pass, or an
earlier one that this pass did not refute. -/
def Backed (passes : List RuntimePass) (t : Time) (found : List Finding) (r : RuntimeResource)
    (t₀ : Time) : Prop :=
  (t₀ = t ∧ Started r found) ∨ (Evidence passes r t₀ ∧ Steady r found)

/-- The map of first sightings within a pass. -/
def Tracks (passes : List RuntimePass) (t : Time) (found : List Finding)
    (m : OrphanObservations) : Prop :=
  ∀ id r t₀, m.get? id = some (r, t₀) → r.resourceId = id ∧ Backed passes t found r t₀

section Observations

variable {passes : List RuntimePass} {t t₀ : Time} {found : List Finding} {r : RuntimeResource}
  {ownership : RuntimeOwnership} {f : Finding}

theorem Steady.snoc (h : Steady r found)
    (hf : f.1.resourceId = r.resourceId → f.1 = r ∧ f.2.isUnsafe = true) :
    Steady r (found ++ [f]) := by
  intro g hg hid
  rcases List.mem_append.mp hg with hold | hnew
  · exact h g hold hid
  · obtain rfl := List.mem_singleton.mp hnew
    exact hf hid

theorem Backed.snoc (h : Backed passes t found r t₀)
    (hf : f.1.resourceId = r.resourceId → f.1 = r ∧ f.2.isUnsafe = true) :
    Backed passes t (found ++ [f]) r t₀ := by
  rcases h with ⟨ht, before, ownership, after, rfl, hown, hsteady⟩ | ⟨hev, hsteady⟩
  · refine Or.inl ⟨ht, before, ownership, after ++ [f], ?_, hown, hsteady.snoc hf⟩
    rw [List.append_assoc, List.cons_append]
  · exact Or.inr ⟨hev, hsteady.snoc hf⟩

theorem Tracks.erase {m : OrphanObservations} (h : Tracks passes t found m) (id : String) :
    Tracks passes t found (m.erase id) :=
  fun id' r t₀ hget => h id' r t₀ (Table.get?_of_get?_erase hget)

/-- **Observations.** Observing a runtime keeps track of it: what it answers for one without
its lease is backed, and any other finding drops the entry. -/
theorem Tracks.observe {m m' : OrphanObservations} {since : Option Time}
    (h : Tracks passes t found m) (hobs : m.observe r ownership t = (since, m')) :
    Tracks passes t (found ++ [(r, ownership)]) m' ∧ (ownership.isUnsafe = true →
      ∀ t₀, since = some t₀ → Backed passes t (found ++ [(r, ownership)]) r t₀) := by
  -- entries of other identifiers are not concerned
  have hother : ∀ id r' t₀, id ≠ r.resourceId → m.get? id = some (r', t₀) →
      r'.resourceId = id ∧ Backed passes t (found ++ [(r, ownership)]) r' t₀ := by
    intro id r' t₀ hne hget
    obtain ⟨hid, hbacked⟩ := h id r' t₀ hget
    exact ⟨hid, hbacked.snoc fun heq => absurd (heq.trans hid).symm hne⟩
  have hstart : ownership.isUnsafe = true →
      Backed passes t (found ++ [(r, ownership)]) r t := fun hown =>
    Or.inl ⟨rfl, found, ownership, [], rfl, hown, fun _ hx => by cases hx⟩
  have hput : ownership.isUnsafe = true →
      Tracks passes t (found ++ [(r, ownership)]) (m.put r.resourceId (r, t)) := by
    intro hown id r' t₀ hget
    rw [Table.get?_put] at hget
    split at hget
    · next hid =>
        obtain ⟨rfl, rfl⟩ := Prod.mk.inj (Option.some.inj hget)
        exact ⟨hid.symm, hstart hown⟩
    · next hne => exact hother id r' t₀ hne hget
  have hsafe : ownership.isUnsafe = false → (since, m') = (none, m.erase r.resourceId) →
      Tracks passes t (found ++ [(r, ownership)]) m' ∧ (ownership.isUnsafe = true →
        ∀ t₀, since = some t₀ → Backed passes t (found ++ [(r, ownership)]) r t₀) := by
    intro hown heq
    obtain ⟨rfl, rfl⟩ := Prod.mk.inj heq
    refine ⟨fun id r' t₀ hget => ?_, fun _ _ hnone => by cases hnone⟩
    rw [Table.get?_erase] at hget
    split at hget
    · cases hget
    · next hne => exact hother id r' t₀ hne hget
  have hgone : ownership.isUnsafe = true →
      m.observe r .jobMissing t = (since, m') →
      Tracks passes t (found ++ [(r, ownership)]) m' ∧ (ownership.isUnsafe = true →
        ∀ t₀, since = some t₀ → Backed passes t (found ++ [(r, ownership)]) r t₀) := by
    intro hown heq
    simp only [OrphanObservations.observe] at heq
    split at heq
    · next observed firstSeen hget =>
        split at heq
        · next hsame =>
            -- the runtime was seen before
            subst hsame
            obtain ⟨rfl, rfl⟩ := Prod.mk.inj heq
            have hback : Backed passes t (found ++ [(observed, ownership)]) observed firstSeen :=
              (h _ _ _ hget).2.snoc fun _ => ⟨rfl, hown⟩
            refine ⟨fun id r' t₀ hget' => ?_, fun _ t₀ ht => Option.some.inj ht ▸ hback⟩
            by_cases hid : id = observed.resourceId
            · subst hid
              obtain ⟨rfl, rfl⟩ := Prod.mk.inj (Option.some.inj (hget.symm.trans hget'))
              exact ⟨rfl, hback⟩
            · exact hother id r' t₀ hid hget'
        · obtain ⟨rfl, rfl⟩ := Prod.mk.inj heq
          exact ⟨hput hown, fun _ t₀ ht => Option.some.inj ht ▸ hstart hown⟩
    · obtain ⟨rfl, rfl⟩ := Prod.mk.inj heq
      exact ⟨hput hown, fun _ t₀ ht => Option.some.inj ht ▸ hstart hown⟩
  cases ownership with
  | activeMatchingLease | unknown => exact hsafe rfl hobs.symm
  | jobMissing | jobTerminal | leaseMismatch => exact hgone rfl hobs

end Observations

/-! ## Histories of passes -/

/-- An action as the observations see it: the cluster is any with these observations. -/
def Observes (cfg : Config) (m : OrphanObservations) (x : Action) (r : x.Res)
    (m' : OrphanObservations) : Prop :=
  ∃ s s', s.memory.orphanObservations = m ∧ (machine cfg).Exec s x r s' ∧
    s'.memory.orphanObservations = m'

/-- The passes of the reconcilers so far, with the observations they left. A new leader
starts without observations. -/
inductive Passes (cfg : Config) : List RuntimePass → OrphanObservations → Prop
  | start : Passes cfg [] Table.empty
  | pass {passes m at_ steps m' result} : Passes cfg passes m →
      (Reconciler.reconcileRuntimes cfg at_).Trace (Observes cfg) m steps m' (.done result) →
      Passes cfg (passes ++ [⟨at_, steps⟩]) m'
  | failover {passes m} : Passes cfg passes m → Passes cfg passes Table.empty

section Histories

variable {cfg : Config} {passes : List RuntimePass} {t t₀ : Time} {found : List Finding}
  {r : RuntimeResource} {m m' : OrphanObservations} {steps : List Step}

theorem observes_query {q : Query} {answer : Except RepositoryError q.Out}
    (h : Observes cfg m (.query q) answer m') : m' = m := by
  obtain ⟨s, s', rfl, hexec, rfl⟩ := h
  rw [(exec_query hexec).1]

theorem observes_outside {x : Outside} {answer : x.Out}
    (h : Observes cfg m (.outside x) answer m') : m' = m := by
  obtain ⟨s, s', rfl, hexec, rfl⟩ := h
  rw [exec_outside hexec]

theorem observes_observe {ownership : RuntimeOwnership} {since : Option Time}
    (h : Observes cfg m (.memory (.orphanObserve r ownership t)) since m') :
    m.observe r ownership t = (since, m') := by
  obtain ⟨s, s', rfl, hexec, rfl⟩ := h
  obtain ⟨rfl, rfl⟩ := exec_memory hexec
  rfl

theorem observes_remove {id : String} {u : Unit}
    (h : Observes cfg m (.memory (.orphanRemove id)) u m') : m' = m.erase id := by
  obtain ⟨s, s', rfl, hexec, rfl⟩ := h
  obtain ⟨_, rfl⟩ := exec_memory hexec
  rfl

theorem observes_retain {listed : List String} {u : Unit}
    (h : Observes cfg m (.memory (.orphanRetain listed)) u m') : m' = m.retain listed := by
  obtain ⟨s, s', rfl, hexec, rfl⟩ := h
  obtain ⟨_, rfl⟩ := exec_memory hexec
  rfl

/-- A settlement keeps track. -/
theorem Tracks.settle {at_ : Time} {ownership : RuntimeOwnership} {since : Option Time}
    {q : Task Bool} (h : Tracks passes t found m)
    (htrace : (Reconciler.settle cfg at_ r ownership since).Trace (Observes cfg) m steps m' q) :
    Tracks passes t found m' := by
  refine htrace.keeps (settle_all cfg at_ r ownership since) ?_ h
  intro m x answer m' hx hexec hm
  rcases hx with hx | hx
  · subst hx
    rw [observes_outside hexec]
    exact hm
  · subst hx
    rw [observes_remove hexec]
    exact hm.erase _

theorem findings_cons {listed : List RuntimeResource}
    {answer : Except RepositoryError (Option JobSchedulingSnapshot)} {y : MemoryCall} {u : y.Out}
    {settled after : List Step} (hsettled : lookups settled = []) :
    findings (r :: listed) (⟨.query (.schedulingSnapshot r.jobId none), answer⟩ ::
      ⟨.memory y, u⟩ :: (settled ++ after)) = (r, r.ownership answer) :: findings listed after := by
  have hlook : lookups (⟨.query (.schedulingSnapshot r.jobId none), answer⟩ ::
      ⟨.memory y, u⟩ :: (settled ++ after)) = answer :: lookups after := by
    show answer :: lookups (settled ++ after) = _
    rw [lookups_append, hsettled, List.nil_append]
  unfold findings
  rw [hlook]
  rfl

/-- **The loop.** It keeps track of what it finds, and looks every listed runtime up. -/
theorem reconcileEach_tracks {listed : List RuntimeResource} {remaining jobs : List JobId}
    (h : (Reconciler.reconcileEach cfg t listed remaining).Trace (Observes cfg) m steps m'
      (.done jobs)) (hm : Tracks passes t found m) :
    Tracks passes t (found ++ findings listed steps) m' ∧
      (findings listed steps).map Prod.fst = listed := by
  induction listed generalizing m found steps remaining with
  | nil =>
      obtain ⟨rfl, rfl, _⟩ := h.of_done
      have hnone : findings [] [] = [] := rfl
      rw [hnone, List.append_nil]
      exact ⟨hm, rfl⟩
  | cons resource rest ih =>
      obtain ⟨answer, since, keeps, m₁, m₂, m₃, settled, after, remaining', hlook, hobserve,
        hsettle, hrest, rfl⟩ := reconcileEach_done h
      obtain rfl := observes_query hlook
      have hobserved := (hm.observe (observes_observe hobserve)).1
      obtain ⟨htracks, hall⟩ := ih hrest (hobserved.settle hsettle)
      rw [findings_cons (settle_lookups hsettle.path)]
      rw [List.append_assoc] at htracks
      exact ⟨htracks, by rw [List.map_cons, hall]⟩

/-- **Removals.** The runtime was found without its lease, since a time the grace period ago. -/
theorem reconcileEach_backed {listed : List RuntimeResource} {remaining : List JobId}
    {k : (Action.outside (.reap r)).Res → Task (List JobId)}
    (h : (Reconciler.reconcileEach cfg t listed remaining).Trace (Observes cfg) m steps m'
      (.act (.outside (.reap r)) k)) (hm : Tracks passes t found m) :
    (∃ ownership, (r, ownership) ∈ findings listed steps ∧ ownership.isUnsafe = true) ∧
      ∃ t₀, (cfg.timing.reapGrace : Int) ≤ t - t₀ ∧
        Backed passes t (found ++ findings listed steps) r t₀ := by
  induction listed generalizing m found steps remaining with
  | nil => exact nomatch h.of_done.2.2
  | cons resource rest ih =>
      obtain ⟨answer, since, m₁, m₂, hlook, hobserve, hcases⟩ := reconcileEach_reap h
      obtain rfl := observes_query hlook
      obtain ⟨htracks, hback⟩ := hm.observe (observes_observe hobserve)
      rcases hcases with ⟨rfl, rfl, heval, rfl⟩ |
        ⟨keeps, m₃, settled, after, remaining', hsettle, hrest, rfl⟩
      · have hnone : findings rest [] = [] := by
          unfold findings
          rw [show lookups [] = [] from rfl, List.zip_nil_right]
          rfl
        have hfound := @findings_cons r rest answer
          (.orphanObserve r (r.ownership answer) t) since [] [] rfl
        rw [hnone] at hfound
        rw [show ∀ a b : Step, [a, b] = a :: b :: ([] ++ []) from fun _ _ => rfl, hfound]
        obtain ⟨hgone, t₀, hsince, hgrace⟩ := evaluateReap_reap heval
        exact ⟨⟨_, List.mem_singleton_self _, hgone⟩, t₀, hgrace, hback hgone t₀ hsince⟩
      · obtain ⟨⟨ownership, hmem, hgone⟩, t₀, hgrace, hbacked⟩ := ih hrest (htracks.settle hsettle)
        rw [findings_cons (settle_lookups hsettle.path)]
        rw [List.append_assoc] at hbacked
        exact ⟨⟨ownership, List.mem_cons_of_mem _ hmem, hgone⟩, t₀, hgrace, hbacked⟩

/-- The map of first sightings between two passes. -/
def Recalls (passes : List RuntimePass) (m : OrphanObservations) : Prop :=
  ∀ id r t₀, m.get? id = some (r, t₀) → r.resourceId = id ∧ Evidence passes r t₀

theorem Recalls.tracks (h : Recalls passes m) (t : Time) : Tracks passes t [] m := by
  intro id r t₀ hget
  obtain ⟨hid, hev⟩ := h id r t₀ hget
  exact ⟨hid, Or.inr ⟨hev, nofun⟩⟩

/-- A runtime with a backed first sighting whose identifier was found was found itself. -/
theorem Backed.finds (h : Backed passes t found r t₀)
    (hid : ∃ f ∈ found, f.1.resourceId = r.resourceId) :
    ∃ ownership, (r, ownership) ∈ found ∧ ownership.isUnsafe = true := by
  rcases h with ⟨_, before, ownership, after, rfl, hown, _⟩ | ⟨_, hsteady⟩
  · exact ⟨ownership, List.mem_append_right _ List.mem_cons_self, hown⟩
  · obtain ⟨⟨x, ownership⟩, hmem, hsame⟩ := hid
    obtain ⟨rfl, hown⟩ := hsteady _ hmem hsame
    exact ⟨ownership, hmem, hown⟩

/-- What a pass leaves of a first sighting that is backed is evidence. -/
theorem Backed.evidence {pass : RuntimePass} (h : Backed passes pass.at_ pass.findings r t₀)
    (hfinds : pass.Finds r) : Evidence (passes ++ [pass]) r t₀ := by
  rcases h with ⟨rfl, _⟩ | ⟨⟨since, ⟨before, rfl⟩, hhead, hall, hsteady⟩, hpass⟩
  · refine ⟨[pass], List.suffix_append _ _, rfl, fun q hq => ?_, nofun⟩
    obtain rfl := List.mem_singleton.mp hq
    exact hfinds
  · cases since with
    | nil => cases hhead
    | cons first rest =>
        refine ⟨first :: rest ++ [pass], ⟨before, (List.append_assoc _ _ _).symm⟩, hhead,
          fun q hq => ?_, fun q hq => ?_⟩
        · rcases List.mem_append.mp hq with hold | hnew
          · exact hall q hold
          · obtain rfl := List.mem_singleton.mp hnew
            exact hfinds
        · rcases List.mem_append.mp hq with hold | hnew
          · exact hsteady q hold
          · obtain rfl := List.mem_singleton.mp hnew
            exact hpass

/-- A pass that listed nothing refutes nothing. -/
theorem Evidence.unlisted {pass : RuntimePass} (h : Evidence passes r t₀)
    (hnone : pass.listed? = none) : Evidence (passes ++ [pass]) r t₀ := by
  have hfindings : pass.findings = [] := by
    unfold RuntimePass.findings
    rw [hnone]
    rfl
  refine Backed.evidence (Or.inr ⟨h, ?_⟩) fun hsome => ?_
  · rw [hfindings]
    exact nofun
  · rw [hnone] at hsome
    cases hsome

theorem get?_retain {m : OrphanObservations} {listed : List String} {id : String}
    {entry : RuntimeResource × Time} (h : (m.retain listed).get? id = some entry) :
    m.get? id = some entry ∧ id ∈ listed := by
  have hfold : ∀ (gone : List String) (m : OrphanObservations),
      (gone.foldl (·.erase ·) m).get? id = some entry → m.get? id = some entry ∧ id ∉ gone := by
    intro gone
    induction gone with
    | nil => exact fun m hm => ⟨hm, nofun⟩
    | cons first rest ih =>
        intro m hm
        obtain ⟨hget, hrest⟩ := ih (m.erase first) hm
        rw [Table.get?_erase] at hget
        split at hget
        · cases hget
        · next hne => exact ⟨hget, fun hmem => (List.mem_cons.mp hmem).elim hne hrest⟩
  obtain ⟨hget, hkept⟩ := hfold _ m h
  refine ⟨hget, ?_⟩
  by_contra hout
  refine hkept (List.mem_filter.mpr ⟨?_, decide_eq_true hout⟩)
  rw [Table.mem_keys_iff, hget]
  rfl

/-- The inventory of a pass, answered. -/
theorem inventory_done {answer : Except String (List RuntimeResource)}
    (h : (Routine.try_ (act (.outside .inventory)) id :
      TaskOr String (List RuntimeResource)).Trace (Observes cfg) m steps m' (.done answer)) :
    m' = m ∧ steps = [⟨.outside .inventory, answer⟩] := by
  obtain ⟨answer', heq, hact⟩ := Trace.map_done h
  obtain ⟨hexec, rfl⟩ := Trace.perform_done hact
  have hsame : answer' = answer := by
    rw [heq]
    cases answer' <;> rfl
  subst hsame
  exact ⟨observes_outside hexec, rfl⟩

/-- What a pass found, from its inventory on. -/
theorem RuntimePass.findings_listed (t : Time) (listed : List RuntimeResource)
    (steps : List Step) :
    (RuntimePass.mk t ([⟨.outside .inventory, .ok listed⟩] ++ steps)).findings =
      RunAnywhere.findings listed steps := rfl

/-- **Passes.** A pass leaves evidence. -/
theorem reconcileRuntimes_recalls {result : Except String (List JobId)}
    (h : (Reconciler.reconcileRuntimes cfg t).Trace (Observes cfg) m steps m' (.done result))
    (hm : Recalls passes m) : Recalls (passes ++ [⟨t, steps⟩]) m' := by
  rcases Trace.andThen_done h with ⟨e, rfl, hfailed⟩ | ⟨listed, m₁, _, _, hlisted, hrest, rfl⟩
  · obtain ⟨rfl, rfl⟩ := inventory_done hfailed
    intro id r t₀ hget
    obtain ⟨hid, hev⟩ := hm id r t₀ hget
    exact ⟨hid, hev.unlisted rfl⟩
  · obtain ⟨rfl, rfl⟩ := inventory_done hlisted
    rcases Trace.andThen_done hrest with ⟨e, rfl, hfailed⟩ | ⟨jobs, m₂, loop, _, hloop, hlast, rfl⟩
    · obtain ⟨_, heq, _⟩ := Trace.map_done hfailed
      cases heq
    obtain ⟨_, _, htrace⟩ := Trace.map_done hloop
    rcases Trace.andThen_done hlast with ⟨e, rfl, hfailed⟩ | ⟨u, m₃, _, _, hforget, hend, rfl⟩
    · obtain ⟨_, heq, _⟩ := Trace.map_done hfailed
      cases heq
    obtain ⟨rfl, rfl, _⟩ := hend.of_done
    obtain ⟨u', _, hretain⟩ := Trace.map_done hforget
    obtain ⟨hexec, rfl⟩ := Trace.perform_done hretain
    obtain rfl := observes_retain hexec
    obtain ⟨htracks, hall⟩ := reconcileEach_tracks htrace (hm.tracks t)
    -- the last step looks nothing up
    have hlook : lookups (loop ++
        ([⟨.memory (.orphanRetain (listed.map (·.resourceId))), u'⟩] ++ [])) = lookups loop := by
      rw [lookups_append]
      exact List.append_nil _
    have hfindings := RuntimePass.findings_listed t listed (loop ++
      ([⟨.memory (.orphanRetain (listed.map (·.resourceId))), u'⟩] ++ []))
    rw [findings, hlook] at hfindings
    intro id r t₀ hget
    obtain ⟨hget, hmem⟩ := get?_retain hget
    obtain ⟨hid, hbacked⟩ := htracks id r t₀ hget
    refine ⟨hid, Backed.evidence ?_ fun _ => ?_⟩
    · rw [hfindings]
      exact hbacked
    · rw [hfindings]
      refine hbacked.finds ?_
      obtain ⟨x, hx, hxid⟩ := List.mem_map.mp hmem
      rw [← hall] at hx
      obtain ⟨f, hf, rfl⟩ := List.mem_map.mp hx
      exact ⟨f, hf, hxid.trans hid.symm⟩

/-- What a pass removes it has evidence against. -/
theorem reconcileRuntimes_evidence {k : (Action.outside (.reap r)).Res →
      TaskOr String (List JobId)}
    (h : (Reconciler.reconcileRuntimes cfg t).Trace (Observes cfg) m steps m'
      (.act (.outside (.reap r)) k)) (hm : Recalls passes m) :
    ∃ t₀, (cfg.timing.reapGrace : Int) ≤ t - t₀ ∧ Evidence (passes ++ [⟨t, steps⟩]) r t₀ := by
  have hkeeps : ¬ Action.KeepsRuntimes (.outside (.reap r)) := id
  obtain ⟨listed, m₁, _, _, hlisted, hrest, rfl⟩ :=
    Trace.skip h (.try_ (.perform trivial)) hkeeps
  obtain ⟨rfl, rfl⟩ := inventory_done hlisted
  rcases Trace.andThen_act hrest with ⟨_, hin⟩ | ⟨jobs, m₂, _, _, _, hlast, rfl⟩
  · obtain ⟨_, htrace⟩ := Trace.map_act hin
    obtain ⟨hfound, t₀, hgrace, hbacked⟩ := reconcileEach_backed htrace (hm.tracks t)
    have hfindings := RuntimePass.findings_listed t listed
    refine ⟨t₀, hgrace, Backed.evidence ?_ fun _ => ?_⟩
    · rw [hfindings]
      exact hbacked
    · rw [hfindings]
      exact hfound
  · exact absurd ((retain_keepsRuntimes listed jobs).path hlast.path) hkeeps

/-- Every history is one of evidence. -/
theorem Passes.recalls (h : Passes cfg passes m) : Recalls passes m := by
  induction h with
  | start => exact nofun
  | pass _ htrace ih => exact reconcileRuntimes_recalls htrace ih
  | failover _ _ => exact nofun

end Histories

/-- A runtime with evidence against it was found without its lease, and no pass after the first
found otherwise. -/
theorem Evidence.unprotected {passes : List RuntimePass} {r : RuntimeResource} {t₀ : Time}
    (h : Evidence passes r t₀) : ∃ since, since <:+ passes ∧
      since.head?.map (·.at_) = some t₀ ∧ (∀ pass ∈ since, pass.Finds r) ∧
        ∀ pass ∈ since.tail, ¬ pass.Restarts r := by
  obtain ⟨since, hsuffix, hhead, hfinds, hsteady⟩ := h
  refine ⟨since, hsuffix, hhead, hfinds, fun pass hpass => ?_⟩
  rintro ⟨listed, hlisted, hnone | ⟨f, hf, hid, hother⟩⟩
  · obtain ⟨ownership, hmem, _⟩ := hfinds pass (List.mem_of_mem_tail hpass) (by rw [hlisted]; rfl)
    -- what was found was listed
    obtain ⟨x, hx, heq⟩ := List.mem_map.mp hmem
    rw [hlisted] at hx
    have hmem : x.1 ∈ listed := (List.of_mem_zip hx).1
    rw [(Prod.mk.inj heq).1] at hmem
    exact hnone r hmem rfl
  · obtain ⟨hsame, hgone⟩ := hsteady pass hpass f hf hid
    rcases hother with hne | hsafe
    · exact hne hsame
    · rw [hgone] at hsafe
      cases hsafe

end RunAnywhere
