import RunAnywhere.Logic.Trace
import RunAnywhere.Scheduler.Docker

/-!
# The reaper removes what it was asked to

`DockerEngineReaper` over every run of any number of inventories and reaps, while others create,
rename and remove containers, and requests that may fail before or after they took effect. A reap
reads the labels of a container and removes it with two requests:

* **lasting** — the container of an id that was used is the one it was, or it is gone for good
  (`Engine.Later`), so what was read of it before holds at the removal (`Engine.Fenced`);
* **references** — an id stands for its own container while that is there
  (`Engine.resolve_own`). Once it is gone the id stands for a container that others gave it as a
  name, or for none (`Engine.Sound.resolve_other`), and a reap may refuse that container or
  remove it.
-/

namespace RunAnywhere.Docker

open Logic Logic.Machine Logic.Prog

/-! ## The engine -/

namespace Engine

/-- Containers have ids the engine gave them. -/
structure Sound (s : Engine) : Prop where
  used : ∀ id c, s.containers.get? id = some c → id ∈ s.used
  ids : ∀ id ∈ s.used, isEngineId id = true

/-- The container of an id that was used is the one it was, or it is gone. -/
structure Later (s s' : Engine) : Prop where
  used : ∀ id ∈ s.used, id ∈ s'.used
  same : ∀ id ∈ s.used, ∀ c', s'.containers.get? id = some c' →
    ∃ c, s.containers.get? id = some c ∧ c'.labels = c.labels ∧ c'.created = c.created

/-- The container of an id that was used is gone. -/
def Gone (s : Engine) (id : String) : Prop := id ∈ s.used ∧ s.containers.get? id = none

/-- The container of an id is gone, and another one has the id as its name. -/
def Taken (s : Engine) (id : String) : Prop :=
  s.Gone id ∧ ∃ id' c, s.containers.get? id' = some c ∧ c.name = id

/-- The labels of a container are those of a resource. -/
def Carries (c : Container) (resource : RuntimeResource) : Prop :=
  labelsMatchResource (c.labels.getD Table.empty) resource = true

/-- The resource's id was used, and its container carries the resource's labels or is gone. -/
def Fenced (s : Engine) (resource : RuntimeResource) : Prop :=
  resource.resourceId ∈ s.used ∧
    ∀ c, s.containers.get? resource.resourceId = some c → Carries c resource

instance (s : Engine) (resource : RuntimeResource) : Decidable (s.Fenced resource) :=
  decidable_of_iff (resource.resourceId ∈ s.used ∧
    (s.containers.get? resource.resourceId).all
      (fun c => labelsMatchResource (c.labels.getD Table.empty) resource) = true)
    (and_congr_right fun _ => by
      unfold Carries
      cases s.containers.get? resource.resourceId with
      | none => simp
      | some c => simp)

variable {s s' s'' : Engine}

theorem Later.refl (s : Engine) : s.Later s :=
  ⟨fun _ h => h, fun _ _ c hc => ⟨c, hc, rfl, rfl⟩⟩

theorem Later.trans (h : s.Later s') (h' : s'.Later s'') : s.Later s'' := by
  refine ⟨fun id hid => h'.used id (h.used id hid), fun id hid c'' hc'' => ?_⟩
  obtain ⟨c', hc', hlabels', hcreated'⟩ := h'.same id (h.used id hid) c'' hc''
  obtain ⟨c, hc, hlabels, hcreated⟩ := h.same id hid c' hc'
  exact ⟨c, hc, hlabels'.trans hlabels, hcreated'.trans hcreated⟩

theorem Gone.later {id : String} (h : s.Gone id) (hl : s.Later s') : s'.Gone id := by
  refine ⟨hl.used id h.1, ?_⟩
  cases hc' : s'.containers.get? id with
  | none => rfl
  | some c' =>
      obtain ⟨c, hc, _⟩ := hl.same id h.1 c' hc'
      rw [h.2] at hc
      cases hc

theorem Fenced.later {resource : RuntimeResource} (h : s.Fenced resource) (hl : s.Later s') :
    s'.Fenced resource := by
  refine ⟨hl.used _ h.1, fun c' hc' => ?_⟩
  obtain ⟨c, hc, hlabels, _⟩ := hl.same _ h.1 c' hc'
  unfold Carries
  rw [hlabels]
  exact h.2 c hc

/-- Removing a container. -/
theorem Sound.erase (h : s.Sound) (id : String) :
    Sound { s with containers := s.containers.erase id } where
  used id' c hc := h.used id' c (Table.get?_of_get?_erase hc)
  ids := h.ids

theorem Later.erase (s : Engine) (id : String) :
    s.Later { s with containers := s.containers.erase id } :=
  ⟨fun _ h => h, fun _ _ c hc => ⟨c, Table.get?_of_get?_erase hc, rfl, rfl⟩⟩

/-- What a reference stands for is there. -/
theorem resolve_ok {reference : String} {row : String × Container}
    (h : s.resolve reference = .ok row) : s.containers.get? row.1 = some row.2 := by
  unfold resolve at h
  split at h
  · next c hc =>
      cases h
      exact hc
  split at h
  · next found hfind =>
      cases h
      exact (Table.mem_rows_iff _ _ _).mp (List.mem_of_find?_eq_some hfind)
  split at h
  · cases h
  · next found hfilter =>
      cases h
      have hmem : row ∈ s.containers.rows :=
        (List.mem_filter.mp (hfilter ▸ List.mem_singleton_self row)).1
      exact (Table.mem_rows_iff _ _ _).mp hmem
  · cases h

/-- An id stands for its own container while that is there. -/
theorem resolve_own {id : String} {c : Container} (h : s.containers.get? id = some c) :
    s.resolve id = .ok (id, c) := by
  unfold resolve
  rw [h]

theorem resolve_error {reference : String} {code : Nat} (h : s.resolve reference = .error code) :
    s.containers.get? reference = none := by
  cases hc : s.containers.get? reference with
  | none => rfl
  | some c =>
      rw [resolve_own hc] at h
      cases h

/-- Without its own container a used id stands for one of that name: ids are equally long, so none
begins another. -/
theorem Sound.resolve_other (h : s.Sound) {id : String} (hgone : s.Gone id)
    {row : String × Container} (hresolve : s.resolve id = .ok row) : row.2.name = id := by
  unfold resolve at hresolve
  rw [hgone.2] at hresolve
  dsimp only at hresolve
  split at hresolve
  · next found hfind =>
      cases hresolve
      have hname := List.find?_some hfind
      exact of_decide_eq_true (p := row.2.name = id) hname
  · have hpart : s.containers.rows.filter
        (fun row => id.toList.isPrefixOf row.1.toList) = [] := by
      refine List.filter_eq_nil_iff.mpr fun row hrow hstart => ?_
      have hrow' := (Table.mem_rows_iff _ _ _).mp hrow
      have hlong := isEngineId_length (h.ids _ (h.used row.1 row.2 hrow'))
      have hsame : id.toList = row.1.toList :=
        (List.isPrefixOf_iff_prefix.mp hstart).eq_of_length
          ((isEngineId_length (h.ids id hgone.1)).trans hlong.symm)
      have hnone := hgone.2
      rw [String.toList_inj.mp hsame, hrow'] at hnone
      cases hnone
    rw [hpart] at hresolve
    cases hresolve

theorem Sound.taken (h : s.Sound) {id : String} (hgone : s.Gone id) {row : String × Container}
    (hresolve : s.resolve id = .ok row) : s.Taken id :=
  ⟨hgone, row.1, row.2, resolve_ok hresolve, h.resolve_other hgone hresolve⟩

end Engine

/-! ## The requests -/

/-- What a request can do to the engine. -/
theorem exec_cases {s s' : Engine} {x : Call} {r : x.Out} (h : machine.Exec s x r s') :
    (s' = s ∨ s' = (x.carry s).2) ∧
      ((r = (x.carry s).1 ∧ s' = (x.carry s).2) ∨ (r = (x.carry s).1.unread ∧ s' = (x.carry s).2) ∨
        (∃ code, r = .status code none ∧ isSuccess code = false ∧ code ≠ notFound) ∨
        r = .failed) := by
  obtain ⟨fate, h⟩ := h
  change x.perform s fate = some (r, s') at h
  cases fate with
  | done =>
      have hcarry : x.carry s = (r, s') := Option.some.inj h
      rw [hcarry]
      exact ⟨Or.inr rfl, Or.inl ⟨rfl, rfl⟩⟩
  | garbled =>
      obtain ⟨rfl, rfl⟩ := Prod.mk.inj (Option.some.inj h)
      exact ⟨Or.inr rfl, Or.inr (Or.inl ⟨rfl, rfl⟩)⟩
  | refused code took =>
      simp only [Call.perform] at h
      split at h
      · cases h
      · next hcode =>
          cases h
          simp only [Bool.or_eq_true, decide_eq_true_eq, not_or, Bool.not_eq_true] at hcode
          refine ⟨?_, Or.inr (Or.inr (Or.inl ⟨code, rfl, hcode⟩))⟩
          cases took with
          | true => exact Or.inr rfl
          | false => exact Or.inl rfl
  | lost took =>
      cases h
      refine ⟨?_, Or.inr (Or.inr (Or.inr rfl))⟩
      cases took with
      | true => exact Or.inr rfl
      | false => exact Or.inl rfl

/-- Requests for containers read only; a removal removes one container at most. -/
theorem carry_engine (s : Engine) (x : Call) :
    (x.carry s).2 = s ∨ ∃ reference row, x = .remove reference ∧ s.resolve reference = .ok row ∧
      (x.carry s).2 = { s with containers := s.containers.erase row.1 } := by
  cases x with
  | list => exact Or.inl rfl
  | inspect reference =>
      refine Or.inl ?_
      simp only [Call.carry]
      split
      · rfl
      · split <;> rfl
  | remove reference =>
      simp only [Call.carry]
      split
      · exact Or.inl rfl
      · split
        · next row hrow => exact Or.inr ⟨reference, row, rfl, hrow, rfl⟩
        · exact Or.inl rfl

theorem exec_engine {s s' : Engine} {x : Call} {r : x.Out} (h : machine.Exec s x r s') :
    s' = s ∨ ∃ reference row, x = .remove reference ∧ s.resolve reference = .ok row ∧
      s' = { s with containers := s.containers.erase row.1 } := by
  rcases (exec_cases h).1 with rfl | rfl
  · exact Or.inl rfl
  · exact carry_engine s x

/-- What the reapers and everyone else share. -/
def discipline : Discipline Engine Call where
  inv := Engine.Sound
  later := Engine.Later
  cond _ _ := True
  allowed _ _ := True
  refl := Engine.Later.refl
  trans := Engine.Later.trans

/-- The moves of others. -/
theorem other_keeps {s s' : Engine} {e : Other} (hs : s.Sound) (h : s.other e = some s') :
    s'.Sound ∧ s.Later s' := by
  cases e with
  | create id container =>
      simp only [Engine.other] at h
      split at h
      · next hnew =>
          obtain ⟨hid, hfresh⟩ := hnew
          cases h
          refine ⟨⟨fun id' c hc => ?_, fun id' hid' => ?_⟩,
            fun id' hid' => List.mem_cons_of_mem _ hid', fun id' hid' c hc => ?_⟩
          · rw [Table.get?_put] at hc
            split at hc
            · next heq => exact heq ▸ List.mem_cons_self
            · exact List.mem_cons_of_mem _ (hs.used id' c hc)
          · rcases List.mem_cons.mp hid' with rfl | hold
            · exact hid
            · exact hs.ids id' hold
          · have hne : id' ≠ id := fun heq => hfresh (heq ▸ hid')
            rw [Table.get?_put_of_ne _ _ hne] at hc
            exact ⟨c, hc, rfl, rfl⟩
      · cases h
  | rename id name =>
      obtain ⟨c, hc, rfl⟩ := Option.map_eq_some_iff.mp h
      refine ⟨⟨fun id' c' hc' => ?_, hs.ids⟩, fun _ h => h, fun id' _ c' hc' => ?_⟩
      · rw [Table.get?_put] at hc'
        split at hc'
        · next heq => exact heq ▸ hs.used id c hc
        · exact hs.used id' c' hc'
      · rw [Table.get?_put] at hc'
        split at hc'
        · next heq =>
            cases hc'
            exact ⟨c, heq ▸ hc, rfl, rfl⟩
        · exact ⟨c', hc', rfl, rfl⟩
  | remove id =>
      cases h
      exact ⟨hs.erase id, .erase s id⟩

theorem respects : Machine.Respects machine discipline fun _ _ _ _ => True where
  act s x r s' hs _ _ hexec := by
    rcases exec_engine hexec with rfl | ⟨_, row, _, _, rfl⟩
    · exact ⟨hs, .refl _⟩
    · exact ⟨hs.erase row.1, .erase s row.1⟩
  env s e s' hs he := other_keeps hs he
  crash s hs := ⟨hs, .refl s⟩
  spawn s i _ _ := Safe.of_all (φ := fun _ => True) (fun _ _ _ _ => trivial) (All.always _) s

/-! ## One call -/

/-- A request among the others. -/
def Races (s : Engine) (x : Call) (r : x.Out) (s' : Engine) : Prop :=
  ∃ s₁, s.Later s₁ ∧ s₁.Sound ∧ machine.Exec s₁ x r s'

variable {s s' : Engine} {steps : List (Σ x : Call, x.Out)} {resource : RuntimeResource}

theorem trace_later {α : Type} {prog rest : Prog Call Call.Out α}
    (h : Trace Races prog s steps s' rest) : s.Later s' := by
  refine h.keeps (P := fun t => s.Later t) (All.always prog) ?_ (.refl s)
  rintro t x r t' _ ⟨s₁, hlater, _, hexec⟩ ht
  rcases exec_engine hexec with rfl | ⟨_, row, _, _, rfl⟩
  · exact ht.trans hlater
  · exact (ht.trans hlater).trans (.erase s₁ row.1)

/-- A request comes to its answer. -/
theorem send_done {x : Call} {res : Except ReaperError x.Out}
    (h : Trace Races (send x) s steps s' (.done res)) :
    ∃ r s₁, res = .ok r ∧ s₁.Sound ∧ machine.Exec s₁ x r s' := by
  obtain ⟨r, rfl, hperform⟩ := Trace.map_done (p := Prog.perform x) h
  obtain ⟨⟨s₁, _, hsound, hexec⟩, _⟩ := Trace.perform_done hperform
  exact ⟨r, s₁, rfl, hsound, hexec⟩

/-- A request is what a trace of it stops at. -/
theorem send_act {x y : Call} {k : y.Out → Prog Call Call.Out (Except ReaperError x.Out)}
    (h : Trace Races (send x) s steps s' (.act y k)) : y = x ∧ s' = s := by
  obtain ⟨_, hperform⟩ := Trace.map_act (p := Prog.perform x) h
  rcases Trace.of_act hperform with ⟨_, rfl, hq⟩ | ⟨r, s₁, _, _, _, hrest⟩
  · exact ⟨(Prog.act.inj hq).1, rfl⟩
  · cases hrest.of_done.2.2

/-- What is answered about a reference. -/
theorem inspect_reply {s s' : Engine} {reference : String} {r : (Call.inspect reference).Out}
    (h : machine.Exec s (.inspect reference) r s') :
    s' = s ∧ ((∃ row, s.resolve reference = .ok row ∧ r = .status 200 (some row.2.labels)) ∨
      (s.containers.get? reference = none ∧ r = .status notFound none) ∨
      (∃ code, r = .status code none ∧ code ≠ notFound) ∨ r = .failed) := by
  have hsame : s' = s := by
    rcases exec_engine h with heq | ⟨_, _, hremove, _⟩
    · exact heq
    · cases hremove
  refine ⟨hsame, ?_⟩
  have hcarry : (∃ row, s.resolve reference = .ok row ∧
      ((Call.inspect reference).carry s).1 = .status 200 (some row.2.labels)) ∨
      ∃ code, (code = notFound → s.containers.get? reference = none) ∧
        ((Call.inspect reference).carry s).1 = .status code none := by
    simp only [Call.carry]
    split
    · exact Or.inr ⟨200, fun hnever => absurd hnever (by decide), rfl⟩
    · cases hresolve : s.resolve reference with
      | ok row => exact Or.inl ⟨row, rfl, rfl⟩
      | error code => exact Or.inr ⟨code, fun _ => Engine.resolve_error hresolve, rfl⟩
  have hunread : ∀ code, (code = notFound → s.containers.get? reference = none) →
      r = .status code none → (s.containers.get? reference = none ∧ r = .status notFound none) ∨
        ∃ code, r = .status code none ∧ code ≠ notFound := by
    intro code hnone hr
    by_cases hcode : code = notFound
    · exact Or.inl ⟨hnone hcode, hcode ▸ hr⟩
    · exact Or.inr ⟨code, hr, hcode⟩
  rcases (exec_cases h).2 with ⟨hr, _⟩ | ⟨hr, _⟩ | ⟨code, hr, _, hcode⟩ | hr
  · rcases hcarry with ⟨row, hresolve, hc⟩ | ⟨code, hnone, hc⟩
    · exact Or.inl ⟨row, hresolve, hr.trans hc⟩
    · exact Or.inr ((hunread code hnone (hr.trans hc)).imp_right Or.inl)
  · rcases hcarry with ⟨row, _, hc⟩ | ⟨code, hnone, hc⟩
    · rw [hc] at hr
      exact Or.inr (Or.inr (Or.inl ⟨200, hr, by decide⟩))
    · rw [hc] at hr
      exact Or.inr ((hunread code hnone hr).imp_right Or.inl)
  · exact Or.inr (Or.inr (Or.inl ⟨code, hr, hcode⟩))
  · exact Or.inr (Or.inr (Or.inr hr))

/-- A removal that is answered with success or with not found leaves no container of that id. -/
theorem remove_reply {s s' : Engine} {id : String} {code : Nat} {body : Option Unit}
    (hs : s.Sound) (h : machine.Exec s (.remove id) (.status code body) s')
    (hcode : isSuccess code = true ∨ code = notFound) : s'.containers.get? id = none := by
  have hgone : (((Call.remove id).carry s).2).containers.get? id = none := by
    simp only [Call.carry]
    cases hc : s.containers.get? id with
    | some c =>
        rw [isEngineId_not_dot (hs.ids id (hs.used id c hc)), if_neg (by decide),
          Engine.resolve_own hc]
        simp [Table.get?_erase]
    | none =>
        split
        · exact hc
        · split
          · next row _ =>
              show (s.containers.erase row.1).get? id = none
              cases herased : (s.containers.erase row.1).get? id with
              | none => rfl
              | some c =>
                  rw [Table.get?_of_get?_erase herased] at hc
                  cases hc
          · exact hc
  rcases (exec_cases h).2 with ⟨_, rfl⟩ | ⟨_, rfl⟩ | ⟨code', hr, hfail, hne⟩ | hr
  · exact hgone
  · exact hgone
  · cases hr
    rcases hcode with hsuccess | hnot
    · rw [hfail] at hsuccess
      cases hsuccess
    · exact absurd hnot hne
  · cases hr

/-! ## The programs -/

/-- What `inspect_matches` finds: at the moment of the request there was no container of the id, or
the labels of the container it stood for were compared. -/
def Found (resource : RuntimeResource) (s : Engine) : Except ReaperError (Option Bool) → Prop
  | .ok none => s.containers.get? resource.resourceId = none
  | .ok (some b) => ∃ row, s.resolve resource.resourceId = .ok row ∧
      labelsMatchResource (row.2.labels.getD Table.empty) resource = b
  | .error e => e = .request ∨ ∃ code, e = .engineStatus code

theorem inspectMatches_done {res : Except ReaperError (Option Bool)}
    (h : Trace Races (inspectMatches resource) s steps s' (.done res)) :
    s'.Sound ∧ Found resource s' res := by
  unfold inspectMatches at h
  rcases Trace.andThen_done h with ⟨e, rfl, hfailed⟩ | ⟨reply, s₁, _, _, hsend, hrest, _⟩
  · obtain ⟨_, _, hnever, _⟩ := send_done hfailed
    cases hnever
  obtain ⟨r, s₀, hr, hsound, hexec⟩ := send_done hsend
  cases hr
  obtain ⟨hsame, hreply⟩ := inspect_reply hexec
  subst hsame
  rcases hreply with ⟨row, hrow, rfl⟩ | ⟨hnone, rfl⟩ | ⟨code, rfl, hcode⟩ | rfl
  · obtain ⟨rfl, rfl⟩ := hrest.done_done
    exact ⟨hsound, row, hrow, rfl⟩
  · obtain ⟨rfl, rfl⟩ := hrest.done_done
    exact ⟨hsound, hnone⟩
  · dsimp only at hrest
    rw [if_neg hcode] at hrest
    split at hrest
    · obtain ⟨rfl, rfl⟩ := hrest.done_done
      exact ⟨hsound, Or.inr ⟨code, rfl⟩⟩
    · obtain ⟨rfl, rfl⟩ := hrest.done_done
      exact ⟨hsound, Or.inl rfl⟩
  · obtain ⟨rfl, rfl⟩ := hrest.done_done
    exact ⟨hsound, Or.inl rfl⟩

theorem inspectMatches_only (resource : RuntimeResource) :
    All (fun x => x = .inspect resource.resourceId) (inspectMatches resource) := by
  refine All.andThen (All.lift (All.perform rfl)) fun reply => ?_
  cases reply with
  | failed => trivial
  | status code body =>
      dsimp only
      split
      · trivial
      · split
        · trivial
        · cases body <;> trivial

/-- A reap removes by the reference under which it found a container that matches. -/
theorem reap_act {reference : String}
    {k : (Call.remove reference).Out → Prog Call Call.Out (Except ReaperError ReapOutcome)}
    (h : Trace Races (reap resource) s steps s' (.act (.remove reference) k)) :
    reference = resource.resourceId ∧
      ∃ row, s'.resolve resource.resourceId = .ok row ∧ Engine.Carries row.2 resource := by
  unfold reap at h
  split at h
  · cases h.of_done.2.2
  obtain ⟨found, s₁, _, _, hinspect, hrest, _⟩ :=
    Trace.skip h (inspectMatches_only resource) (by intro heq; cases heq)
  obtain ⟨_, hfound⟩ := inspectMatches_done hinspect
  rcases found with _ | _ | _
  · cases hrest.of_done.2.2
  · cases hrest.of_done.2.2
  · rcases Trace.andThen_act hrest with ⟨_, hsend⟩ | ⟨reply, s₂, _, _, _, hlast, _⟩
    · obtain ⟨heq, rfl⟩ := send_act hsend
      exact ⟨Call.remove.inj heq, hfound⟩
    · cases reply with
      | failed => cases hlast.of_done.2.2
      | status code body =>
          dsimp only at hlast
          split at hlast
          · cases hlast.of_done.2.2
          · split at hlast <;> cases hlast.of_done.2.2

/-- What a reap comes to: the container of the id is gone, or the engine failed, or the id stands
for a container that is not the resource. -/
def Settled (resource : RuntimeResource) (s : Engine) : Except ReaperError ReapOutcome → Prop
  | .ok outcome => outcome ≠ .skipped ∧ s.containers.get? resource.resourceId = none
  | .error e => e = .request ∨ (∃ code, e = .engineStatus code) ∨
      (e = .identityMismatch resource.resourceId ∧
        ∃ row, s.resolve resource.resourceId = .ok row ∧ ¬ Engine.Carries row.2 resource)

theorem removeContainer_done {res : Except ReaperError ReapOutcome}
    (h : Trace Races (removeContainer resource) s steps s' (.done res)) :
    s'.Sound ∧ Settled resource s' res := by
  rcases Trace.andThen_done h with ⟨e, rfl, hfailed⟩ | ⟨reply, s₁, _, _, hsend, hrest, _⟩
  · obtain ⟨_, _, hnever, _⟩ := send_done hfailed
    cases hnever
  obtain ⟨r, s₀, hr, hsound, hexec⟩ := send_done hsend
  cases hr
  have hsound₁ : s₁.Sound := by
    rcases exec_engine hexec with rfl | ⟨_, row, _, _, rfl⟩
    · exact hsound
    · exact hsound.erase row.1
  cases reply with
  | failed =>
      obtain ⟨rfl, rfl⟩ := hrest.done_done
      exact ⟨hsound₁, Or.inl rfl⟩
  | status code body =>
      dsimp only at hrest
      split at hrest
      · next hsuccess =>
          obtain ⟨rfl, rfl⟩ := hrest.done_done
          exact ⟨hsound₁, ReapOutcome.noConfusion, remove_reply hsound hexec (Or.inl hsuccess)⟩
      · split at hrest
        · next hnot =>
            obtain ⟨rfl, rfl⟩ := hrest.done_done
            exact ⟨hsound₁, ReapOutcome.noConfusion, remove_reply hsound hexec (Or.inr hnot)⟩
        · obtain ⟨rfl, rfl⟩ := hrest.done_done
          exact ⟨hsound₁, Or.inr (Or.inl ⟨code, rfl⟩)⟩

theorem reap_done (hvalid : validResourceId resource.resourceId = true)
    {res : Except ReaperError ReapOutcome}
    (h : Trace Races (reap resource) s steps s' (.done res)) :
    s'.Sound ∧ Settled resource s' res := by
  unfold reap at h
  rw [hvalid, if_neg (by decide)] at h
  rcases Trace.andThen_done h with ⟨e, rfl, hfailed⟩ | ⟨found, s₁, _, _, hinspect, hrest, _⟩
  · obtain ⟨hsound, hfound⟩ := inspectMatches_done hfailed
    exact ⟨hsound, hfound.imp_right Or.inl⟩
  obtain ⟨hsound, hfound⟩ := inspectMatches_done hinspect
  rcases found with _ | _ | _
  · obtain ⟨rfl, rfl⟩ := hrest.done_done
    exact ⟨hsound, ReapOutcome.noConfusion, hfound⟩
  · obtain ⟨rfl, rfl⟩ := hrest.done_done
    obtain ⟨row, hrow, hmatch⟩ := hfound
    refine ⟨hsound, Or.inr (Or.inr ⟨rfl, row, hrow, fun hcarries => ?_⟩)⟩
    unfold Engine.Carries at hcarries
    rw [hmatch] at hcarries
    cases hcarries
  · exact removeContainer_done hrest

/-- An inventory is its one request. -/
theorem inventory_prog :
    Task.inventory.prog = .act .list fun reply => .done ((listed reply).map .listed) := by
  show Prog.act _ _ = Prog.act _ _
  congr 1
  funext reply
  cases hreply : listed reply with
  | ok resources =>
      show Routine.bind (Routine.ofExcept (listed reply)) _ = _
      rw [hreply]
      rfl
  | error e =>
      show Routine.bind (Routine.ofExcept (listed reply)) _ = _
      rw [hreply]
      rfl

/-! ## Every run -/

/-- What an inventory is answered: every managed container as it is read, each once. So each of
them can be read. -/
structure Engine.Lists (s : Engine) (resources : List RuntimeResource) : Prop where
  complete : ∀ id c, s.containers.get? id = some c → Managed c →
    ∃ resource ∈ resources, runtimeFromContainer ⟨id, c.created, c.labels⟩ = .ok resource
  carried : ∀ resource ∈ resources, ∃ c, s.containers.get? resource.resourceId = some c ∧
    Managed c ∧ Carries c resource ∧
    runtimeFromContainer ⟨resource.resourceId, c.created, c.labels⟩ = .ok resource
  once : (resources.map (·.resourceId)).Nodup

/-- The answer of an inventory: the managed containers, or an error of the engine or of a managed
container that cannot be read. -/
def Engine.Answers (s : Engine) : Except ReaperError Came → Prop
  | .ok (.listed resources) => s.Lists resources
  | .ok (.reaped _) => False
  | .error e => e = .request ∨ (∃ code, e = .engineStatus code) ∨
      ∃ container ∈ s.listing, runtimeFromContainer container = .error e

namespace Engine

theorem mem_listing {s : Engine} {container : DockerContainer} :
    container ∈ s.listing ↔ ∃ c, s.containers.get? container.id = some c ∧ Managed c ∧
      container.created = c.created ∧ container.labels = c.labels := by
  unfold listing
  rw [List.mem_map]
  constructor
  · rintro ⟨row, hrow, rfl⟩
    obtain ⟨hmem, hmanaged⟩ := List.mem_filter.mp hrow
    exact ⟨row.2, (Table.mem_rows_iff _ _ _).mp hmem, of_decide_eq_true hmanaged, rfl, rfl⟩
  · rintro ⟨c, hc, hmanaged, hcreated, hlabels⟩
    refine ⟨(container.id, c), List.mem_filter.mpr ⟨(Table.mem_rows_iff _ _ _).mpr hc,
      decide_eq_true hmanaged⟩, ?_⟩
    rw [← hcreated, ← hlabels]

theorem nodup_listing (s : Engine) : (s.listing.map (·.id)).Nodup := by
  unfold listing
  rw [List.map_map]
  exact s.containers.nodup.sublist (List.filter_sublist.map Prod.fst)

/-- What the inventory reads. -/
theorem lists_of_mapM {s : Engine} {resources : List RuntimeResource}
    (h : s.listing.mapM runtimeFromContainer = .ok resources) : s.Lists resources := by
  have hids : resources.map (·.resourceId) = s.listing.map (·.id) :=
    Result.mapM_map (fun _ _ hread => (runtimeFromContainer_matches hread).1) h
  have hcarried : ∀ resource ∈ resources, ∃ c, s.containers.get? resource.resourceId = some c ∧
      Managed c ∧ Carries c resource ∧
      runtimeFromContainer ⟨resource.resourceId, c.created, c.labels⟩ = .ok resource := by
    intro resource hresource
    obtain ⟨container, hlisted, hread⟩ := Result.mapM_mem h hresource
    obtain ⟨c, hc, hmanaged, hcreated, hlabels⟩ := mem_listing.mp hlisted
    obtain ⟨hid, hmatch⟩ := runtimeFromContainer_matches hread
    refine ⟨c, hid ▸ hc, hmanaged, ?_, ?_⟩
    · unfold Carries
      rw [← hlabels]
      exact hmatch
    · rw [hid, ← hcreated, ← hlabels]
      exact hread
  refine ⟨fun id c hc hmanaged => ?_, hcarried, hids ▸ s.nodup_listing⟩
  have hlisted : (⟨id, c.created, c.labels⟩ : DockerContainer) ∈ s.listing :=
    mem_listing.mpr ⟨c, hc, hmanaged, rfl, rfl⟩
  have hid : id ∈ resources.map (·.resourceId) := hids ▸ List.mem_map_of_mem hlisted
  obtain ⟨resource, hresource, rfl⟩ := List.mem_map.mp hid
  obtain ⟨c', hc', _, _, hread⟩ := hcarried resource hresource
  cases hc.symm.trans hc'
  exact ⟨resource, hresource, hread⟩

theorem Lists.fenced {s : Engine} {resources : List RuntimeResource} (h : s.Lists resources)
    (hs : s.Sound) {resource : RuntimeResource} (hresource : resource ∈ resources) :
    s.Fenced resource := by
  obtain ⟨c, hc, _, hcarries, _⟩ := h.carried resource hresource
  refine ⟨hs.used _ c hc, fun c' hc' => ?_⟩
  cases hc.symm.trans hc'
  exact hcarries

end Engine

/-- The answer to the request of an inventory. -/
theorem listed_answers {s s' : Engine} {reply : Call.list.Out}
    (h : machine.Exec s .list reply s') : s.Answers ((listed reply).map .listed) := by
  rcases (exec_cases h).2 with ⟨rfl, _⟩ | ⟨rfl, _⟩ | ⟨code, rfl, hcode, _⟩ | rfl
  · show s.Answers ((s.listing.mapM runtimeFromContainer).map .listed)
    cases hread : s.listing.mapM runtimeFromContainer with
    | ok resources => exact Engine.lists_of_mapM hread
    | error e => exact Or.inr (Or.inr (Result.mapM_error hread))
  · exact Or.inl rfl
  · simp only [listed, hcode]
    exact Or.inr (Or.inl ⟨code, rfl⟩)
  · exact Or.inl rfl

/-- A reap that is asked for comes to what `reap` comes to. -/
theorem task_reap_done {res : Except ReaperError Came}
    (h : Trace Races (Task.reap resource).prog s steps s' (.done res)) :
    ∃ steps₁ res₁, Trace Races (reap resource) s steps₁ s' (.done res₁) ∧
      res = res₁.map .reaped := by
  rcases Trace.andThen_done h with ⟨e, rfl, hfailed⟩ | ⟨outcome, s₁, _, _, hreap, hrest, _⟩
  · exact ⟨_, _, hfailed, rfl⟩
  · obtain ⟨rfl, rfl⟩ := hrest.done_done
    exact ⟨_, _, hreap, rfl⟩

theorem task_reap_act {x : Call} {k : x.Out → Prog Call Call.Out (Except ReaperError Came)}
    (h : Trace Races (Task.reap resource).prog s steps s' (.act x k)) :
    ∃ k₁, Trace Races (reap resource) s steps s' (.act x k₁) := by
  rcases Trace.andThen_act h with hin | ⟨outcome, s₁, _, _, _, hrest, _⟩
  · exact hin
  · cases hrest.of_done.2.2

/-- A list of resources is the answer of an inventory. -/
theorem task_listed {i : Task} {resources : List RuntimeResource}
    (h : Trace Races i.prog s steps s' (.done (.ok (.listed resources)))) : i = .inventory := by
  cases i with
  | inventory => rfl
  | reap resource =>
      obtain ⟨_, res, _, hres⟩ := task_reap_done h
      cases res <;> cases hres

/-- A reap of the resource that began with `birth` removes a container: the resource's id stands
for it, and stood for one with the resource's labels before. Of an id that was used it is the
container of the id, with the labels, or that one is gone and the other has the id as its name. -/
structure Engine.Removes (birth s : Engine) (resource : RuntimeResource) (id : String)
    (c : Container) : Prop where
  stands : s.resolve resource.resourceId = .ok (id, c)
  checked : ∃ s₁ row, birth.Later s₁ ∧ s₁.Later s ∧ s₁.resolve resource.resourceId = .ok row ∧
    Carries row.2 resource
  used : resource.resourceId ∈ birth.used → (id = resource.resourceId ∧ Carries c resource) ∨
    (s.Gone resource.resourceId ∧ c.name = resource.resourceId)

theorem Engine.removes {birth s₁ s : Engine} {row : String × Container} {id : String}
    {c : Container} (hbirth : birth.Later s₁) (hlater : s₁.Later s) (hs : s.Sound)
    (hrow : s₁.resolve resource.resourceId = .ok row) (hcarries : Carries row.2 resource)
    (hstands : s.resolve resource.resourceId = .ok (id, c)) : birth.Removes s resource id c := by
  refine ⟨hstands, ⟨s₁, row, hbirth, hlater, hrow, hcarries⟩, fun hused => ?_⟩
  have hused₁ := hbirth.used _ hused
  cases hown : s.containers.get? resource.resourceId with
  | none =>
      have hgone : s.Gone resource.resourceId := ⟨hlater.used _ hused₁, hown⟩
      exact Or.inr ⟨hgone, hs.resolve_other hgone hstands⟩
  | some own =>
      obtain ⟨rfl, rfl⟩ := Prod.mk.inj (Except.ok.inj ((resolve_own hown).symm.trans hstands))
      obtain ⟨c₁, hc₁, hlabels, _⟩ := hlater.same _ hused₁ own hown
      obtain rfl := Except.ok.inj ((resolve_own hc₁).symm.trans hrow)
      refine Or.inl ⟨rfl, ?_⟩
      unfold Carries
      rw [hlabels]
      exact hcarries

/-- The system of the reapers from one engine. -/
abbrev runs (start : Engine) : TSys (Pool Engine Call Call.Out Task (Except ReaperError Came))
    (Cmd Task Fate Other) :=
  machine.system (· = start) fun _ _ => True

section Runs

variable {start : Engine} {p : Pool Engine Call Call.Out Task (Except ReaperError Came)}

theorem inv_start (hstart : start.Sound) : ∀ s : Engine, s = start → discipline.inv s := by
  rintro _ rfl
  exact hstart

theorem thread_traced (hstart : start.Sound) (hr : (runs start).Reachable p)
    {th : Thread Engine Call Call.Out Task (Except ReaperError Came)} (hth : th ∈ p.threads) :
    ∃ s steps, Trace Races th.tag.prog th.birth steps s th.rest ∧ s.Later p.state :=
  respects.traces (inv_start hstart) p hr th hth

/-- A container goes by a reap that removes it. -/
theorem gone_removed (hstart : start.Sound) (hr : (runs start).Reachable p) {n : Nat} {o : Fate}
    {p' : Pool Engine Call Call.Out Task (Except ReaperError Came)} {id : String} {c : Container}
    (hnext : machine.next p (.act n o) = some p') (hc : p.state.containers.get? id = some c)
    (hgone : p'.state.containers.get? id = none) : ∃ th resource, p.threads[n]? = some th ∧
      th.tag = .reap resource ∧ th.birth.Removes p.state resource id c := by
  obtain ⟨i, b, x, k, r, hth, hperform, _⟩ := next_act hnext
  rcases exec_engine ⟨o, hperform⟩ with hsame | ⟨reference, row, rfl, hresolve, heq⟩
  · rw [hsame, hc] at hgone
    cases hgone
  obtain ⟨s, steps, htrace, hl⟩ := thread_traced hstart hr (List.mem_of_getElem? hth)
  cases i with
  | inventory =>
      change Trace Races Task.inventory.prog _ _ _ _ at htrace
      rw [inventory_prog] at htrace
      rcases htrace.of_act with ⟨_, _, hq⟩ | ⟨_, _, _, _, _, hrest⟩
      · cases (Prog.act.inj hq).1
      · cases hrest.of_done.2.2
  | reap resource =>
      obtain ⟨_, hreap⟩ := task_reap_act htrace
      obtain ⟨rfl, row₁, hrow₁, hcarries⟩ := reap_act hreap
      -- the container that is gone is the one the reference stood for
      have hstands : p.state.resolve resource.resourceId = .ok (id, c) := by
        rw [heq, Table.get?_erase] at hgone
        split at hgone
        · next hsame =>
            subst hsame
            obtain rfl := Option.some.inj ((Engine.resolve_ok hresolve).symm.trans hc)
            exact hresolve
        · rw [hc] at hgone
          cases hgone
      have hsound : p.state.Sound := respects.inv (inv_start hstart) hr
      exact ⟨_, resource, hth, rfl,
        Engine.removes (trace_later hreap) hl hsound hrow₁ hcarries hstands⟩

/-- An inventory is answered as of the moment of its request. -/
theorem inventory_answers (hstart : start.Sound) (hr : (runs start).Reachable p) {n : Nat}
    {o : Fate} {p' : Pool Engine Call Call.Out Task (Except ReaperError Came)}
    {th : Thread Engine Call Call.Out Task (Except ReaperError Came)}
    {res : Except ReaperError Came} (hnext : machine.next p (.act n o) = some p')
    (hth : p'.threads[n]? = some th) (htag : th.tag = .inventory) (hdone : th.rest = .done res) :
    p.state.Answers res := by
  obtain ⟨i, b, x, k, r, hold, hperform, hthreads⟩ := next_act hnext
  have hn : n < p.threads.length := (List.getElem?_eq_some_iff.mp hold).1
  rw [hthreads, List.getElem?_set_self hn] at hth
  cases hth
  cases htag
  obtain ⟨s, steps, htrace, _⟩ := thread_traced hstart hr (List.mem_of_getElem? hold)
  change Trace Races Task.inventory.prog _ _ _ _ at htrace
  rw [inventory_prog] at htrace
  rcases htrace.of_act with ⟨_, _, hq⟩ | ⟨_, _, _, _, _, hrest⟩
  · cases hq
    cases Prog.done.inj hdone
    exact listed_answers ⟨o, hperform⟩
  · cases hrest.of_done.2.2

/-- What was listed is fenced. -/
theorem listed_fenced (hstart : start.Sound) (hr : (runs start).Reachable p)
    {th : Thread Engine Call Call.Out Task (Except ReaperError Came)} (hth : th ∈ p.threads)
    {resources : List RuntimeResource} (hdone : th.rest = .done (.ok (.listed resources)))
    {resource : RuntimeResource} (hresource : resource ∈ resources) :
    isEngineId resource.resourceId = true ∧ p.state.Fenced resource := by
  obtain ⟨s, steps, htrace, hl⟩ := thread_traced hstart hr hth
  rw [hdone] at htrace
  have hinventory := task_listed htrace
  rw [hinventory] at htrace
  change Trace Races Task.inventory.prog _ _ _ _ at htrace
  rw [inventory_prog] at htrace
  obtain ⟨reply, s₁, _, ⟨s₀, _, hs₀, hexec⟩, _, hrest⟩ := htrace.act_done
  obtain ⟨_, rfl, hres⟩ := hrest.of_done
  have hlists : s₀.Answers (.ok (.listed resources)) := Prog.done.inj hres ▸ listed_answers hexec
  have hfenced := Engine.Lists.fenced hlists hs₀ hresource
  have hsame : s = s₀ := by
    rcases exec_engine hexec with heq | ⟨_, _, hremove, _⟩
    · exact heq
    · cases hremove
  subst hsame
  exact ⟨hs₀.ids _ hfenced.1, hfenced.later hl⟩

/-- A reap of what is fenced leaves its container gone, or the engine failed. -/
theorem fenced_reaped (hstart : start.Sound) (hr : (runs start).Reachable p)
    {th : Thread Engine Call Call.Out Task (Except ReaperError Came)} (hth : th ∈ p.threads)
    {resource : RuntimeResource} {res : Except ReaperError Came} (htag : th.tag = .reap resource)
    (hdone : th.rest = .done res) (hfenced : th.birth.Fenced resource) :
    (((∃ outcome, res = .ok (.reaped outcome) ∧ outcome ≠ .skipped) ∨
        (res = .error (.identityMismatch resource.resourceId) ∧
          ∃ s, th.birth.Later s ∧ s.Later p.state ∧ s.Taken resource.resourceId)) ∧
      p.state.Gone resource.resourceId) ∨
    res = .error .request ∨ ∃ code, res = .error (.engineStatus code) := by
  have hsound : p.state.Sound := respects.inv (inv_start hstart) hr
  obtain ⟨s, steps, htrace, hl⟩ := thread_traced hstart hr hth
  rw [hdone, htag] at htrace
  obtain ⟨_, res₁, hreap, rfl⟩ := task_reap_done htrace
  have hlater := trace_later hreap
  have hused := hlater.used _ hfenced.1
  have hid := hsound.ids _ (hl.used _ hused)
  obtain ⟨hsound₁, hsettled⟩ := reap_done (isEngineId_valid hid) hreap
  cases res₁ with
  | ok outcome =>
      have hgone : s.Gone resource.resourceId := ⟨hused, hsettled.2⟩
      exact Or.inl ⟨Or.inl ⟨outcome, rfl, hsettled.1⟩, hgone.later hl⟩
  | error e =>
      rcases hsettled with rfl | ⟨code, rfl⟩ | ⟨rfl, row, hrow, hnot⟩
      · exact Or.inr (Or.inl rfl)
      · exact Or.inr (Or.inr ⟨code, rfl⟩)
      · -- what is refused is not the container of the id, which would carry the labels
        have hgone : s.Gone resource.resourceId := by
          refine ⟨hused, ?_⟩
          cases hown : s.containers.get? resource.resourceId with
          | none => rfl
          | some own =>
              obtain rfl := Except.ok.inj ((Engine.resolve_own hown).symm.trans hrow)
              exact absurd ((hfenced.later hlater).2 own hown) hnot
        exact Or.inl ⟨Or.inr ⟨rfl, s, hlater, hl, hsound₁.taken hgone hrow⟩, hgone.later hl⟩

end Runs

/-- **Docker.** Any number of inventories and reaps over an engine that others use as well:

* a reaper removes a container only as a reap of a resource whose id stands for it
  (`Engine.Removes`);
* an inventory is answered, at the moment of its request, with every managed container, or fails;
* what was listed stays fenced: its id is of the container that was listed, or that one is gone;
* a reap of what is fenced ends with the container gone for good, or the engine failed. It is
  refused only when the container is gone and another one has the id as its name. -/
theorem docker_reaps_exactly {start : Engine} (hstart : start.Sound)
    {p : Pool Engine Call Call.Out Task (Except ReaperError Came)} {cs : List (Cmd Task Fate Other)}
    (hrun : (runs start).Run ⟨start, []⟩ cs p) :
    (∀ n o p' id c, machine.next p (.act n o) = some p' → p.state.containers.get? id = some c →
      p'.state.containers.get? id = none → ∃ th resource, p.threads[n]? = some th ∧
        th.tag = .reap resource ∧ th.birth.Removes p.state resource id c) ∧
    (∀ n o p' th res, machine.next p (.act n o) = some p' → p'.threads[n]? = some th →
      th.tag = .inventory → th.rest = .done res → p.state.Answers res) ∧
    (∀ th ∈ p.threads, ∀ resources, th.rest = .done (.ok (.listed resources)) →
      ∀ resource ∈ resources, isEngineId resource.resourceId = true ∧
        ∀ cs' p', (runs start).Run p cs' p' → p'.state.Fenced resource) ∧
    ∀ th ∈ p.threads, ∀ resource res, th.tag = .reap resource → th.rest = .done res →
      th.birth.Fenced resource →
        (((∃ outcome, res = .ok (.reaped outcome) ∧ outcome ≠ .skipped) ∨
            (res = .error (.identityMismatch resource.resourceId) ∧
              ∃ s, th.birth.Later s ∧ s.Later p.state ∧ s.Taken resource.resourceId)) ∧
          ∀ cs' p', (runs start).Run p cs' p' →
            p'.state.containers.get? resource.resourceId = none) ∨
        res = .error .request ∨ ∃ code, res = .error (.engineStatus code) := by
  have hboot : (runs start).Reachable ⟨start, []⟩ := .init ⟨rfl, rfl⟩
  have hreach := hboot.run hrun
  have hlater : ∀ cs' p', (runs start).Run p cs' p' → p.state.Later p'.state :=
    fun _ _ hrun' => respects.run_later (inv_start hstart) hreach hrun'
  refine ⟨?_, ?_, ?_, ?_⟩
  · intro n o p' id c hnext hc hgone
    exact gone_removed hstart hreach hnext hc hgone
  · intro n o p' th res hnext hth htag hdone
    exact inventory_answers hstart hreach hnext hth htag hdone
  · intro th hth resources hdone resource hresource
    obtain ⟨hid, hfenced⟩ := listed_fenced hstart hreach hth hdone hresource
    exact ⟨hid, fun cs' p' hrun' => hfenced.later (hlater cs' p' hrun')⟩
  · intro th hth resource res htag hdone hfenced
    rcases fenced_reaped hstart hreach hth htag hdone hfenced with ⟨hended, hgone⟩ | hfailed
    · exact Or.inl ⟨hended, fun cs' p' hrun' => (hgone.later (hlater cs' p' hrun')).2⟩
    · exact Or.inr hfailed

namespace Sample

def runtimeId : String := String.ofList (List.replicate 64 'a')

def labels : Labels :=
  [(managedLabel, "true"), (jobIdLabel, "job_reaped"), (workerIdLabel, "wrk_reaped"),
    (leaseIdLabel, "lease_reaped"), (runtimeKindLabel, "redroid")].foldl
      (fun labels label => labels.put label.1 label.2) Table.empty

def engine : Engine where
  containers := Table.empty.put runtimeId ⟨"emulator", 1700000000, some labels⟩
  used := [runtimeId]

theorem engine_sound : engine.Sound := by
  have hid : isEngineId runtimeId = true := by decide
  refine ⟨fun id c hc => ?_, fun id h => ?_⟩
  · simp only [engine, Table.get?_put, Table.get?_empty] at hc
    split at hc
    · next heq => exact heq ▸ List.mem_cons_self
    · cases hc
  · cases List.mem_singleton.mp h
    exact hid

def emulator : RuntimeResource where
  resourceId := runtimeId
  jobId := ⟨"job_reaped", by decide⟩
  workerId := ⟨"wrk_reaped", by decide⟩
  leaseId := ⟨"lease_reaped", by decide⟩
  createdAt := 1700000000000000

/-- Ids of the engine are its own. -/
def otherId : String := String.ofList (List.replicate 64 'b')

/-- A container of others that has the id of the first one as its name. -/
def namesake : Container := ⟨runtimeId, 1700000001, none⟩

/-- The container is renamed after it was listed. The answer to its removal is lost, and the next
reap finds it gone. Then others give another container its id as a name, which a third reap
refuses. -/
def retried : List (Cmd Task Fate Other) :=
  [.spawn .inventory, .act 0 .done, .env (.rename runtimeId "renamed"),
    .spawn (.reap emulator), .act 1 .done, .act 1 (.lost true),
    .spawn (.reap emulator), .act 2 .done, .env (.create otherId namesake),
    .spawn (.reap emulator), .act 3 .done]

/-- The container goes, and its namesake comes, between the two requests of a reap. -/
def overtaken : List (Cmd Task Fate Other) :=
  [.spawn (.reap emulator), .act 0 .done, .env (.remove runtimeId),
    .env (.create otherId namesake), .act 0 .done]

/-- What a thread came to, and whether its resource was fenced when it was spawned. -/
def outcome? (th : Thread Engine Call Call.Out Task (Except ReaperError Came)) :
    Option (Except ReaperError Came) × Bool :=
  match th.rest with
  | .done r => (some r, th.birth.Fenced emulator)
  | .act _ _ => (none, th.birth.Fenced emulator)

end Sample

/-- The removal that was not answered is not repeated, and the container stays away. -/
theorem docker_reaps_exactly_retried :
    ∃ p, (runs Sample.engine).Run ⟨Sample.engine, []⟩ Sample.retried p ∧
      p.threads.map (fun th => (Sample.outcome? th).1) = [some (.ok (.listed [Sample.emulator])),
        some (.error .request), some (.ok (.reaped .alreadyAbsent)),
        some (.error (.identityMismatch Sample.runtimeId))] ∧
      ∀ cs' p', (runs Sample.engine).Run p cs' p' →
        p'.state.containers.get? Sample.runtimeId = none := by
  have hfinal : (machine.replay ⟨Sample.engine, []⟩ Sample.retried).map
      (fun p => p.threads.map fun th => (th.tag, Sample.outcome? th)) =
        some [(.inventory, some (.ok (.listed [Sample.emulator])), true),
          (.reap Sample.emulator, some (.error .request), true),
          (.reap Sample.emulator, some (.ok (.reaped .alreadyAbsent)), true),
          (.reap Sample.emulator, some (.error (.identityMismatch Sample.runtimeId)), true)] := by
    decide +kernel
  obtain ⟨p, hreplay, houtcomes⟩ := Option.map_eq_some_iff.mp hfinal
  have hrun : (runs Sample.engine).Run ⟨Sample.engine, []⟩ Sample.retried p :=
    machine.replay_run hreplay
  have hlast : (Task.reap Sample.emulator, some (.ok (.reaped .alreadyAbsent)), true) ∈
      p.threads.map fun th => (th.tag, Sample.outcome? th) := by
    rw [houtcomes]
    simp
  obtain ⟨th, hth, hthread⟩ := List.mem_map.mp hlast
  obtain ⟨htag, houtcome⟩ := Prod.mk.inj hthread
  have hdone : th.rest = .done (.ok (.reaped .alreadyAbsent)) ∧
      th.birth.Fenced Sample.emulator := by
    unfold Sample.outcome? at houtcome
    split at houtcome
    · next heq =>
        obtain ⟨hr, hfenced⟩ := Prod.mk.inj houtcome
        cases hr
        exact ⟨heq, of_decide_eq_true hfenced⟩
    · cases (Prod.mk.inj houtcome).1
  obtain ⟨_, _, _, hreaps⟩ := docker_reaps_exactly Sample.engine_sound hrun
  refine ⟨p, hrun, ?_, fun cs' p' hrun' => ?_⟩
  · have hmapped := congrArg (List.map fun o => o.2.1) houtcomes
    rw [List.map_map] at hmapped
    exact hmapped
  · rcases hreaps th hth _ _ htag hdone.1 hdone.2 with ⟨_, hgone⟩ | hfailed | ⟨_, hfailed⟩
    · exact hgone cs' p' hrun'
    · cases hfailed
    · cases hfailed

/-- A reap that was overtaken removes the namesake, which has no labels at all. -/
example : (machine.replay ⟨Sample.engine, []⟩ Sample.overtaken).map (fun p =>
    (p.state.containers.rows.length, p.state.used, p.threads.map fun th =>
      (Sample.outcome? th).1)) =
    some (0, [Sample.otherId, Sample.runtimeId], [some (.ok (.reaped .reaped))]) := by
  decide +kernel

end RunAnywhere.Docker
