import RunAnywhere.Scheduler.Acknowledgements

/-!
# Acknowledgements

The registry hands every delivery to one owner at a time: the binding of a lease ends with the
call that took it or with a confirmation of its own sequence by the server, and it ends once.

* **changes** — a binding appears by a bind of the dispatcher and disappears by a release of its
  own lease (`acks_changes`);
* **releases** — between two releases of a job there is a bind (`acks_rebound`);
* **fences** — what a worker's call sends to the server was bound under its lease
  (`acks_fenced`);
* **confirmations** — `confirm_ack` succeeds only with the server's word (`acks_confirmed`).
-/

namespace RunAnywhere

open Logic

namespace AckRecord

/-- After the records `A` the action binds job `j`: for a claim, whose lease is a new one and of
which nothing is asked, or as a rebind. A rebind is at least as new as the binding of its lease,
and an older one was double-acknowledged. -/
def Binds (A : List AckRecord) (j : JobId) (e : AckRecord) : Prop :=
  ∃ w l n, e.after.bound j = some ⟨w, l, n⟩ ∧
    (e.who.call = .claimed j w l n ∨
      (e.who.call = .bindOrAckDuplicate j w l n ∧
        ∀ b, e.before.bound j = some b → b.workerId = w → b.leaseId = l →
          b.streamSequence ≤ n ∧ (b.streamSequence < n → ∃ answer,
            (⟨.stream (.doubleAck b.streamSequence), answer⟩ : Σ x, Action.Res x) ∈
              own e.who A)))

/-- After the records `A` the action ends the binding `b` of job `j`, for a call of its lease. A
`confirm_ack` has the server's confirmation of the sequence. -/
def Releases (A : List AckRecord) (j : JobId) (b : AckBinding) (e : AckRecord) : Prop :=
  e.before.bound j = some b ∧ e.after.bound j = none ∧
    (e.who.call = .take j b.workerId b.leaseId ∨ e.who.call = .nak j b.workerId b.leaseId ∨
      ∃ rounds, e.who.call = .confirmAck rounds j b.workerId b.leaseId ∧
        (own e.who A).getLast? = some ⟨.stream (.doubleAck b.streamSequence), .ok ()⟩)

end AckRecord

variable {cfg : Config} {s s' : Cluster}

/-! ## Records -/

/-- No other move touches the registry while a call runs. -/
theorem acks_quiet : Machine.Quiet (acknowledgements cfg) fun s s' =>
    s'.memory.registry = s.memory.registry where
  refl _ := rfl
  trans h h' := h'.trans h
  env := by
    intro s e s' h
    obtain rfl := Option.some.inj h
    rfl
  crash _ := rfl

/-- Every record is of a permitted action. -/
theorem acks_permitted : (acknowledging cfg).Invariant fun q =>
    ∀ A e B, q.journal = A ++ e :: B → e.who.call.Permits (own e.who A) e.step.1 ∧
      (acknowledgements cfg).Exec e.before e.step.1 e.step.2 e.after := by
  refine Machine.record_invariant acks_quiet ?_
  intro q i birth before since x k r s' _ _ hlive hexec
  refine ⟨?_, hexec⟩
  have hpath := (permits_prog i.call).path hlive.path
  have hbefore : own i before = [] := hlive.new
  show i.call.Permits (own i (before ++ since)) x
  rw [own_append, hbefore]
  exact hpath

/-- An action told of a binding that was there and stays. -/
theorem Tells.bound {j : JobId} {w : WorkerId} {l : LeaseId} {b : AckBinding}
    {step : Σ x, Action.Res x} (h : Tells j w l b step)
    (hexec : (acknowledgements cfg).Exec s step.1 step.2 s') :
    s.bound j = some b ∧ s' = s ∧ b.workerId = w ∧ b.leaseId = l := by
  rcases h with rfl | ⟨n, rfl⟩
  · have hmachine : (machine cfg).Exec s (.memory (.binding j w l)) (.ok b) s' := hexec
    obtain ⟨hfound, rfl⟩ := exec_memory hmachine
    obtain ⟨hget, hworker, hlease⟩ := binding_found hfound
    exact ⟨hget, rfl, hworker, hlease⟩
  · have hmachine : (machine cfg).Exec s (.memory (.settle j w l n)) (.ok (some b)) s' := hexec
    obtain ⟨hfound, rfl⟩ := exec_memory hmachine
    obtain ⟨hget, hworker, hlease⟩ := settle_found hfound
    rw [settle_kept hfound]
    exact ⟨hget, rfl, hworker, hlease⟩

/-! ## Changes -/

/-- While a call of the dispatcher runs, nobody else binds: what it found bound stays bound, or is
released. -/
theorem dispatcher_alone {q : Journaled Cluster Action Action.Res AckCaller AckReport}
    (hr : (acknowledging cfg).Reachable q)
    {th : Thread Cluster Action Action.Res AckCaller AckReport}
    {before since : List AckRecord} (hjournal : q.journal = before ++ since)
    (hlive : Machine.Live (acknowledgements cfg) (fun i => i.call.isDispatcher)
      (fun s s' => s'.memory.registry = s.memory.registry) th before since q.pool.state)
    {j : JobId} {w : WorkerId} {l : LeaseId} {n : Nat}
    (hcall : th.tag.call = .bindOrAckDuplicate j w l n)
    {found : Except AckRegistryError AckBinding} {rest : List (Σ x, Action.Res x)}
    (hown : own th.tag since = [] ++ ⟨.memory (.binding j w l), found⟩ :: rest)
    (hrest : ∀ step ∈ rest, ∃ m, step.1 = .stream (.doubleAck m)) {b : AckBinding}
    (hb : q.pool.state.bound j = some b) (hw : b.workerId = w) (hl : b.leaseId = l) :
    found = .ok b := by
  obtain ⟨A, g, B, rfl, -, hwho, hstep, hB⟩ := own_split hown
  have hrefl : ∀ s : Cluster, s.memory.registry = s.memory.registry := fun _ => rfl
  obtain ⟨m, -, hlinked⟩ := hlive.linked.of_append hrefl
  cases hlinked with
  | cons _ hexec hafter =>
  rw [hstep] at hexec
  have hmachine : (machine cfg).Exec g.before (.memory (.binding j w l)) found g.after := hexec
  obtain ⟨hfound, hstays⟩ := exec_memory hmachine
  -- the binding found, or none, from then on
  have hkept : ∀ s s' : Cluster, s'.memory.registry = s.memory.registry →
      s.bound j = none ∨ s.bound j = g.before.bound j →
      s'.bound j = none ∨ s'.bound j = g.before.bound j := by
    intro s s' hsame h
    rw [Cluster.bound, hsame]
    exact h
  have hend : q.pool.state.bound j = none ∨ q.pool.state.bound j = g.before.bound j := by
    by_contra hchanged
    obtain ⟨C, e, D, rfl, hold, hnew⟩ := hafter.leaves hkept
      (Or.inr (by rw [hstays]; rfl)) hchanged
    obtain ⟨hpermits, heffect⟩ := acks_permitted q hr (before ++ (A ++ g :: C)) e D
      (by rw [hjournal]; simp only [List.append_assoc, List.cons_append])
    rcases access_cases hpermits heffect with hsame | ⟨j', w', l', n', hx, _, hcaller⟩ |
      ⟨j', b', _, herase, _⟩
    · exact hnew (hkept _ _ hsame hold)
    · -- a bind is of the same task, which has only double-acknowledged since
      have hsolo : e.who.call.isDispatcher = true := by
        rcases hcaller with hcall' | ⟨hcall', _⟩
        · rw [hcall']; rfl
        · rw [hcall']; rfl
      have hsame : e.who = th.tag := by
        refine hlive.alone e ?_ hsolo (by rw [hcall]; rfl)
        exact List.mem_append_right _ (List.mem_cons_of_mem _
          (List.mem_append_right _ List.mem_cons_self))
      have hmem : e.step ∈ rest := by
        rw [← hB, mem_own]
        exact ⟨e, List.mem_append_right _ List.mem_cons_self, hsame, rfl⟩
      obtain ⟨m', hack⟩ := hrest _ hmem
      rw [hx] at hack
      cases hack
    · refine hnew ?_
      rw [Cluster.bound, herase, Table.get?_erase]
      split
      · exact Or.inl rfl
      · exact hold
  rcases hend with hnone | hsame
  · rw [hnone] at hb
    cases hb
  · rw [hb] at hsame
    have hget : g.before.memory.registry.get? j = some b := hsame.symm
    rw [← hfound]
    simp only [MemoryCall.run, LeaderMemory.binding, hget]
    rw [if_pos (AckBinding.isFor_iff.mpr ⟨hw, hl⟩)]

/-- **Changes.** A record that changes the binding of a job binds it, or releases the binding it
had. -/
theorem acks_changes : (acknowledging cfg).Invariant fun q => ∀ A e B, q.journal = A ++ e :: B →
    ∀ j, e.after.bound j ≠ e.before.bound j →
      AckRecord.Binds A j e ∨ ∃ b, AckRecord.Releases A j b e := by
  refine Machine.record_invariant acks_quiet ?_
  intro q i birth before since x k r s' hr hjournal hlive hexec j hchanged
  have hbefore : own i before = [] := hlive.new
  have hpast : own i (before ++ since) = own i since := by
    rw [own_append, hbefore, List.nil_append]
  have hpermits : i.call.Permits (own i since) x := (permits_prog i.call).path hlive.path
  rcases access_cases hpermits hexec with hsame | ⟨j', w, l, n, rfl, hput, hcaller⟩ |
    ⟨j', b, hb, herase, hcaller⟩
  · exact absurd (congrArg (Table.get? · j) hsame) hchanged
  · obtain rfl : j' = j := by
      by_contra hne
      refine hchanged ?_
      show s'.memory.registry.get? j = _
      rw [hput, Table.get?_put_of_ne _ _ (Ne.symm hne)]
      rfl
    have hafter : s'.bound j' = some ⟨w, l, n⟩ := by
      rw [Cluster.bound, hput, Table.get?_put_self]
    refine Or.inl ⟨w, l, n, hafter, ?_⟩
    rcases hcaller with hcall | ⟨hcall, found, rest, hown, hrest, hcompared⟩
    · exact Or.inl hcall
    · refine Or.inr ⟨hcall, fun b hb hw hl => ?_⟩
      have hfound : found = .ok b :=
        dispatcher_alone hr hjournal hlive hcall hown hrest hb hw hl
      obtain ⟨hle, hacked⟩ := hcompared b hfound
      refine ⟨hle, fun hlt => ?_⟩
      obtain ⟨answer, hmem⟩ := hacked hlt
      refine ⟨answer, ?_⟩
      show _ ∈ own i (before ++ since)
      rw [hpast, hown]
      exact List.mem_cons_of_mem _ hmem
  · obtain rfl : j' = j := by
      by_contra hne
      refine hchanged ?_
      show s'.memory.registry.get? j = _
      rw [herase, Table.get?_erase, if_neg (Ne.symm hne)]
      rfl
    have hafter : s'.bound j' = none := by
      rw [Cluster.bound, herase, Table.get?_erase, if_pos rfl]
    refine Or.inr ⟨b, hb, hafter, ?_⟩
    rcases hcaller with hcall | hcall | ⟨rounds, hcall, front, told, b', hown, _, hn⟩
    · exact Or.inl hcall
    · exact Or.inr (Or.inl hcall)
    · refine Or.inr (Or.inr ⟨rounds, hcall, ?_⟩)
      show (own i (before ++ since)).getLast? = _
      rw [hpast, hown]
      simp

/-! ## Releases -/

/-- A crash empties the registry; nothing else but a record changes it. -/
theorem acks_linked : (acknowledging cfg).Invariant fun q => ∃ s : Cluster,
    s.memory.registry = Table.empty ∧
      Linked (acknowledgements cfg).Exec (fun s s' => s'.memory.registry = s.memory.registry ∨
        s'.memory.registry = Table.empty) s q.journal q.pool.state := by
  refine Machine.linked_invariant (fun _ => Or.inl rfl) ?_ ?_ fun _ => Or.inr rfl
  · intro a b c h h'
    rcases h' with hsame | hempty
    · rw [hsame]
      exact h
    · exact Or.inr hempty
  · intro s e s' h
    obtain rfl := Option.some.inj h
    exact Or.inl rfl

/-- **One release.** Between two releases of a job there is a bind. -/
theorem acks_rebound {q : Journaled Cluster Action Action.Res AckCaller AckReport}
    (hr : (acknowledging cfg).Reachable q) {A B C : List AckRecord} {e f : AckRecord}
    (hjournal : q.journal = A ++ e :: (B ++ f :: C)) {j : JobId} {b b' : AckBinding}
    (he : AckRecord.Releases A j b e) (hf : AckRecord.Releases (A ++ e :: B) j b' f) :
    ∃ D g E, B = D ++ g :: E ∧ AckRecord.Binds (A ++ e :: D) j g := by
  obtain ⟨s, -, hlinked⟩ := acks_linked q hr
  rw [hjournal] at hlinked
  have hrefl : ∀ s : Cluster, s.memory.registry = s.memory.registry ∨
      s.memory.registry = Table.empty := fun _ => Or.inl rfl
  obtain ⟨m, -, hlinked⟩ := hlinked.of_append hrefl
  cases hlinked with
  | cons _ _ hlinked =>
  obtain ⟨m', hbetween, hlinked⟩ := hlinked.of_append hrefl
  cases hlinked with
  | cons hmove _ _ =>
  have hkept : ∀ s s' : Cluster, (s'.memory.registry = s.memory.registry ∨
      s'.memory.registry = Table.empty) → s.bound j = none → s'.bound j = none := by
    intro s s' hmoved hnone
    rcases hmoved with hsame | hempty
    · rw [Cluster.bound, hsame]
      exact hnone
    · rw [Cluster.bound, hempty]
      exact Table.get?_empty j
  have hbound : ¬ m'.bound j = none := by
    intro hnone
    have hlost := hkept _ _ hmove hnone
    rw [hf.1] at hlost
    cases hlost
  obtain ⟨D, g, E, rfl, hbefore, hafter⟩ := hbetween.leaves hkept he.2.1 hbound
  refine ⟨D, g, E, rfl, ?_⟩
  have hsplit : q.journal = (A ++ e :: D) ++ g :: (E ++ f :: C) := by
    rw [hjournal]
    simp only [List.append_assoc, List.cons_append]
  rcases acks_changes q hr _ g _ hsplit j (by rw [hbefore]; exact hafter) with hbinds | ⟨b'', hrel⟩
  · exact hbinds
  · rw [hrel.1] at hbefore
    cases hbefore

/-! ## Fences -/

/-- The record of a step that told of a binding. -/
theorem told_bound {q : Journaled Cluster Action Action.Res AckCaller AckReport}
    (hr : (acknowledging cfg).Reachable q) {before A B : List AckRecord}
    (hjournal : q.journal = before ++ (A ++ B)) {i : AckCaller}
    {front back : List (Σ x, Action.Res x)} {told : Σ x, Action.Res x}
    (hown : own i A = front ++ told :: back) {j : JobId} {w : WorkerId} {l : LeaseId}
    {b : AckBinding} (htells : Tells j w l b told) :
    ∃ C g D, A = C ++ g :: D ∧ g.who = i ∧ g.before.bound j = some b ∧ g.after = g.before ∧
      b.workerId = w ∧ b.leaseId = l ∧ own i D = back := by
  obtain ⟨C, g, D, rfl, -, hwho, hstep, hback⟩ := own_split hown
  have hsplit : q.journal = (before ++ C) ++ g :: (D ++ B) := by
    rw [hjournal]
    simp only [List.append_assoc, List.cons_append]
  obtain ⟨-, hexec⟩ := acks_permitted q hr _ g _ hsplit
  rw [hstep] at hexec
  obtain ⟨hbound, hstays, hw, hl⟩ := htells.bound hexec
  exact ⟨C, g, D, rfl, hwho, hbound, hstays, hw, hl, hback⟩

/-- **Fences.** A worker's call sends the server only the sequence of a delivery that it found
bound under its own lease, and a negative acknowledgement only after it released the binding. -/
theorem acks_fenced {q : Journaled Cluster Action Action.Res AckCaller AckReport}
    (hr : (acknowledging cfg).Reachable q) {A B : List AckRecord} {e : AckRecord}
    (hjournal : q.journal = A ++ e :: B) (hcaller : e.who.call.isDispatcher = false)
    {x : StreamCall} (hx : e.step.1 = .stream x) :
    ∃ C g D b, A = C ++ g :: D ∧ g.who = e.who ∧
      g.before.bound e.who.call.jobId = some b ∧
      b.workerId = e.who.call.workerId ∧ b.leaseId = e.who.call.leaseId ∧
      (x = .progress b.streamSequence ∨ x = .doubleAck b.streamSequence ∨
        (x = .nak b.streamSequence ∧ AckRecord.Releases C e.who.call.jobId b g)) := by
  obtain ⟨hpermits, -⟩ := acks_permitted q hr A e B hjournal
  have hwhole : q.journal = [] ++ (A ++ e :: B) := hjournal
  cases hcall : e.who.call with
  | claimed j w l n =>
      rw [hcall] at hcaller
      cases hcaller
  | bindOrAckDuplicate j w l n =>
      rw [hcall] at hcaller
      cases hcaller
  | confirmAck rounds j w l =>
      rw [hcall, hx] at hpermits
      rcases hpermits with hact | ⟨front, told, b, hown, htells, hact⟩ | ⟨n, hact, _⟩ | hact
      · cases hact
      · obtain rfl := Action.stream.inj hact
        obtain ⟨C, g, D, hA, hwho, hbound, _, hw, hl, _⟩ :=
          told_bound hr hwhole hown htells
        exact ⟨C, g, D, b, hA, hwho, hbound, hw, hl, Or.inr (Or.inl rfl)⟩
      · cases hact
      · cases hact
  | progress j w l =>
      rw [hcall, hx] at hpermits
      rcases hpermits with hact | ⟨b, hown, hact⟩
      · cases hact
      · obtain rfl := Action.stream.inj hact
        have hfirst : own e.who A = [] ++ [⟨.memory (.binding j w l), .ok b⟩] := hown
        obtain ⟨C, g, D, hA, hwho, hbound, _, hw, hl, _⟩ :=
          told_bound hr hwhole hfirst (Or.inl rfl)
        exact ⟨C, g, D, b, hA, hwho, hbound, hw, hl, Or.inl rfl⟩
  | take j w l =>
      rw [hcall, hx] at hpermits
      cases hpermits
  | nak j w l =>
      rw [hcall, hx] at hpermits
      rcases hpermits with hact | ⟨b, hown, hact⟩
      · cases hact
      · obtain rfl := Action.stream.inj hact
        have hfirst : own e.who A = [] ++ [⟨.memory (.take j w l), .ok b⟩] := hown
        obtain ⟨C, g, D, rfl, -, hwho, hstep, -⟩ := own_split hfirst
        have hsplit : q.journal = C ++ g :: (D ++ e :: B) := by
          rw [hjournal]
          simp only [List.append_assoc, List.cons_append]
        obtain ⟨-, hexec⟩ := acks_permitted q hr C g _ hsplit
        rw [hstep] at hexec
        have hmachine : (machine cfg).Exec g.before (.memory (.take j w l)) (.ok b) g.after := hexec
        obtain ⟨htaken, hafter⟩ := exec_memory hmachine
        obtain ⟨hget, rfl, rfl, herase⟩ := take_taken htaken
        have hnone : g.after.bound j = none := by
          rw [Cluster.bound, hafter]
          show ((MemoryCall.take j _ _).run g.before.memory).2.registry.get? j = none
          rw [herase, Table.get?_erase, if_pos rfl]
        refine ⟨C, g, D, b, rfl, hwho, hget, rfl, rfl, Or.inr (Or.inr ⟨rfl, hget, hnone, ?_⟩)⟩
        exact Or.inr (Or.inl (hwho ▸ hcall))

/-! ## Confirmations -/

/-- **Confirmations.** When `confirm_ack` answers success, the server confirmed to it the sequence
of a binding that it found under its lease, and the binding of the job was released since. -/
theorem acks_confirmed {q : Journaled Cluster Action Action.Res AckCaller AckReport}
    (hr : (acknowledging cfg).Reachable q)
    {th : Thread Cluster Action Action.Res AckCaller AckReport} (hth : th ∈ q.pool.threads)
    {rounds : Nat} {j : JobId} {w : WorkerId} {l : LeaseId}
    (hcall : th.tag.call = .confirmAck rounds j w l)
    (hrest : th.rest = .done (.answered (.ok ()))) :
    ∃ A g B b, q.journal = A ++ g :: B ∧ g.who = th.tag ∧ g.before.bound j = some b ∧
      b.workerId = w ∧ b.leaseId = l ∧
      (∃ e ∈ B, e.who = th.tag ∧ e.step = ⟨.stream (.doubleAck b.streamSequence), .ok ()⟩) ∧
      ∃ D f E b', B = D ++ f :: E ∧ AckRecord.Releases (A ++ g :: D) j b' f := by
  obtain ⟨before, since, hjournal, hlive⟩ := Machine.live_invariant acks_quiet q hr th hth
  have hpath := hlive.path
  rw [hrest] at hpath
  obtain ⟨front, n, hown, front', told, b, rfl, htells, rfl⟩ :=
    (permits_prog th.tag.call).ends hpath rounds j w l hcall rfl
  rw [List.nil_append] at hown
  obtain ⟨P, f, E, rfl, hP, hfwho, hfstep, -⟩ := own_split hown
  have hP' : own th.tag P = front' ++
      told :: [⟨.stream (.doubleAck b.streamSequence), .ok ()⟩] := hP
  obtain ⟨A, g, D, rfl, hwho, hbound, hstays, hw, hl, hD⟩ := told_bound hr hjournal hP' htells
  have hsplit : q.journal = (before ++ A) ++ g :: (D ++ f :: E) := by
    rw [hjournal]
    simp only [List.append_assoc, List.cons_append]
  obtain ⟨e, heD, hewho, hestep⟩ := mem_own.mp (hD ▸ List.mem_cons_self :
    (⟨.stream (.doubleAck b.streamSequence), .ok ()⟩ : Σ x, Action.Res x) ∈ own th.tag D)
  refine ⟨before ++ A, g, D ++ f :: E, b, hsplit, hwho, hbound, hw, hl,
    ⟨e, List.mem_append_left _ heD, hewho, hestep⟩, ?_⟩
  -- a record that loses the binding released it
  have hreleases : ∀ D' f' E', D ++ f :: E = D' ++ f' :: E' → f'.before.bound j ≠ none →
      f'.after.bound j = none → ∃ D f E₁ b', D' ++ f' :: E' = D ++ f :: E₁ ∧
        AckRecord.Releases ((before ++ A) ++ g :: D) j b' f := by
    intro D' f' E' hparts hhad hlost
    have hsplit' : q.journal = ((before ++ A) ++ g :: D') ++ f' :: E' := by
      rw [hsplit, hparts]
      simp only [List.append_assoc, List.cons_append]
    rcases acks_changes q hr _ f' _ hsplit' j (by rw [hlost]; exact Ne.symm hhad) with
      ⟨w', l', n', hbinds, -⟩ | ⟨b', hrel⟩
    · rw [hlost] at hbinds
      cases hbinds
    · exact ⟨D', f', E', b', rfl, hrel⟩
  by_cases hhad : f.before.bound j = none
  · -- another call removed it meanwhile
    have hrefl : ∀ s : Cluster, s.memory.registry = s.memory.registry := fun _ => rfl
    have hlinked := hlive.linked
    rw [List.append_assoc] at hlinked
    obtain ⟨_, -, hlinked⟩ := hlinked.of_append hrefl
    cases hlinked with
    | cons _ _ hlinked =>
    obtain ⟨m, hbetween, hlinked⟩ := hlinked.of_append hrefl
    cases hlinked with
    | cons hmove _ _ =>
    have hkept : ∀ s s' : Cluster, s'.memory.registry = s.memory.registry →
        s.bound j ≠ none → s'.bound j ≠ none := by
      intro s s' hsame hsome
      rw [Cluster.bound, hsame]
      exact hsome
    have hgone : ¬ m.bound j ≠ none := by
      intro hsome
      exact hkept _ _ hmove hsome hhad
    have hstart : g.after.bound j ≠ none := by
      rw [hstays, hbound]
      exact Option.some_ne_none b
    obtain ⟨D₁, f', D₂, rfl, hbefore, hafter⟩ := hbetween.leaves hkept hstart hgone
    have hparts : (D₁ ++ f' :: D₂) ++ f :: E = D₁ ++ f' :: (D₂ ++ f :: E) := by
      simp only [List.append_assoc, List.cons_append]
    rw [hparts]
    exact hreleases D₁ f' _ hparts hbefore (not_not.mp hafter)
  · -- its own check removed it
    refine hreleases D f E rfl hhad ?_
    have hsplit' : q.journal = ((before ++ A) ++ g :: D) ++ f :: E := by
      rw [hsplit]
      simp only [List.append_assoc, List.cons_append]
    obtain ⟨-, hexec⟩ := acks_permitted q hr _ f E hsplit'
    rw [hfstep] at hexec
    have hmachine : (machine cfg).Exec f.before (.memory (.settle j w l b.streamSequence))
        (.ok none) f.after := hexec
    obtain ⟨hsettled, hafter⟩ := exec_memory hmachine
    rw [Cluster.bound, hafter]
    exact settle_gone hsettled

/-- **The registry.** In every run of any number of calls against the registry, with the
dispatcher as one task and new leaders at any time:

* a record that changes the binding of a job binds it for the dispatcher, for a claim, or as a
  rebind by a delivery at least as new as the one of the same lease it replaces, which was
  double-acknowledged; or it releases the binding, for a call of its lease;
* between two releases of a job there is a bind;
* a call of a worker sends only the sequence of a delivery it found bound under its lease, and
  `nak` only after it released it;
* when `confirm_ack` answers success, the server confirmed a binding of its lease to it, and the
  job was released since. -/
theorem acks_exclusive {q : Journaled Cluster Action Action.Res AckCaller AckReport}
    (hr : (acknowledging cfg).Reachable q) :
    (∀ A e B j, q.journal = A ++ e :: B → e.after.bound j ≠ e.before.bound j →
      AckRecord.Binds A j e ∨ ∃ b, AckRecord.Releases A j b e) ∧
    (∀ A e B f C j b b', q.journal = A ++ e :: (B ++ f :: C) → AckRecord.Releases A j b e →
      AckRecord.Releases (A ++ e :: B) j b' f →
      ∃ D g E, B = D ++ g :: E ∧ AckRecord.Binds (A ++ e :: D) j g) ∧
    (∀ A e B x, q.journal = A ++ e :: B → e.who.call.isDispatcher = false →
      e.step.1 = .stream x → ∃ C g D b, A = C ++ g :: D ∧ g.who = e.who ∧
        g.before.bound e.who.call.jobId = some b ∧
        b.workerId = e.who.call.workerId ∧ b.leaseId = e.who.call.leaseId ∧
        (x = .progress b.streamSequence ∨ x = .doubleAck b.streamSequence ∨
          (x = .nak b.streamSequence ∧ AckRecord.Releases C e.who.call.jobId b g))) ∧
    ∀ th ∈ q.pool.threads, ∀ rounds j w l, th.tag.call = .confirmAck rounds j w l →
      th.rest = .done (.answered (.ok ())) →
      ∃ A g B b, q.journal = A ++ g :: B ∧ g.who = th.tag ∧ g.before.bound j = some b ∧
        b.workerId = w ∧ b.leaseId = l ∧
        (∃ e ∈ B, e.who = th.tag ∧ e.step = ⟨.stream (.doubleAck b.streamSequence), .ok ()⟩) ∧
        ∃ D f E b', B = D ++ f :: E ∧ AckRecord.Releases (A ++ g :: D) j b' f := by
  refine ⟨?_, ?_, ?_, ?_⟩
  · intro A e B j hjournal
    exact acks_changes q hr A e B hjournal j
  · intro A e B f C j b b' hjournal he hf
    exact acks_rebound hr hjournal he hf
  · intro A e B x hjournal hcaller hx
    exact acks_fenced hr hjournal hcaller hx
  · intro th hth rounds j w l hcall hrest
    exact acks_confirmed hr hth hcall hrest

namespace Sample

/-- The next action of a call, which succeeds. -/
def proceeds (n : Nat) : Cmd AckCaller Choice Cluster :=
  .act n { draw := ⟨event 0, lease, fun _ => false⟩ }

/-- The claim binds delivery 3; while it is confirmed, delivery 5 takes its place and is
confirmed too. -/
def rebound : List (Cmd AckCaller Choice Cluster) :=
  [.spawn ⟨0, .claimed job worker lease 3⟩, proceeds 0, .finish 0,
    .spawn ⟨1, .confirmAck 2 job worker lease⟩, proceeds 0,
    .spawn ⟨2, .bindOrAckDuplicate job worker lease 5⟩, proceeds 1, proceeds 1, proceeds 0,
    proceeds 1, proceeds 1, proceeds 0, proceeds 0, proceeds 0]

/-- The sequences bound to the job after each record. -/
def sequences (J : List AckRecord) : List (Option Nat) :=
  J.map fun e => (e.after.bound job).map (·.streamSequence)

/-- The call of a thread that answered success. -/
def answered? (th : Thread Cluster Action Action.Res AckCaller AckReport) : Option AckCall :=
  match th.rest with
  | .done (.answered (.ok _)) => some th.tag.call
  | _ => none

end Sample

open Sample in
/-- The delivery that took the place of the first is confirmed and released. -/
theorem acks_exclusive_rebound :
    ∃ q : Journaled Cluster Action Action.Res AckCaller AckReport,
      (acknowledging (config 1)).Reachable q ∧
      sequences q.journal =
        [some 3, some 3, some 3, some 3, some 3, some 5, some 5, some 5, some 5, none] ∧
      ∃ A g B b, q.journal = A ++ g :: B ∧ g.before.bound job = some b ∧ b.leaseId = lease ∧
        ∃ D f E b', B = D ++ f :: E ∧ AckRecord.Releases (A ++ g :: D) job b' f := by
  have hfinal : ((acknowledgements (config 1)).logs (fun i => i.call.isDispatcher)
      ⟨⟨Cluster.boot (config 1) catalog, []⟩, []⟩ rebound).map
        (fun q => (sequences q.journal, q.pool.threads.map answered?)) =
      some ([some 3, some 3, some 3, some 3, some 3, some 5, some 5, some 5, some 5, none],
        [some (.confirmAck 2 job worker lease), none]) := by
    decide +kernel
  obtain ⟨q, hlogs, hends⟩ := Option.map_eq_some_iff.mp hfinal
  obtain ⟨hsequences, hanswers⟩ := Prod.mk.inj hends
  have hr : (acknowledging (config 1)).Reachable q :=
    Machine.logs_reachable (.init ⟨rfl, rfl, rfl⟩) hlogs
  have hlast : some (.confirmAck 2 job worker lease) ∈ q.pool.threads.map answered? := by
    rw [hanswers]
    exact List.mem_cons_self
  obtain ⟨th, hth, hthread⟩ := List.mem_map.mp hlast
  unfold answered? at hthread
  split at hthread
  · next hdone =>
      obtain ⟨_, _, _, hconfirmed⟩ := acks_exclusive hr
      obtain ⟨A, g, B, b, hjournal, _, hbound, _, hl, _, hreleased⟩ :=
        hconfirmed th hth _ _ _ _ (Option.some.inj hthread) hdone
      exact ⟨q, hr, hsequences, A, g, B, b, hjournal, hbound, hl, hreleased⟩
  · cases hthread

end RunAnywhere
