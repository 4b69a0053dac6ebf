import RunAnywhere.Logic.RoundRobin
import RunAnywhere.Scheduler.Turns

/-!
# Projects take turns

A lane of the fairness buffer serves its projects in turn. Its ring is a ring of the round
robin library (`FairQueue.Sound.rounds`): a push lets a project join at the end, a pop
serves the head, and a popped entry that is pushed back finds its project where it is or
behind everyone who waits. The alternation of any two projects follows, for any history of
pushes and pops; inside its project an entry is served in order of creation
(`projects_take_turns`).
-/

namespace RunAnywhere

open Logic

variable {α : Type}

/-- The operation takes an entry out by its job. -/
def FairOp.isRemove : FairOp α → Bool
  | .remove _ => true
  | _ => false

/-- The project a pop served in lane `l`. -/
def FairPop.projectIn (l : PriorityLane) (p : FairPop α) : Option ProjectId :=
  match p.answer with
  | some e => if e.lane = l then some e.projectId else none
  | none => none

/-- The projects lane `l` served in a history, in order. -/
def FairQueue.servedIn (q : FairQueue α) (l : PriorityLane) (ops : List (FairOp α)) :
    List ProjectId :=
  (q.pops ops).filterMap (·.projectIn l)

/-- Project `p` has a buffered entry in lane `l` at every pop of the lane. -/
def FairQueue.PendingThroughout (q : FairQueue α) (l : PriorityLane) (ops : List (FairOp α))
    (p : ProjectId) : Prop :=
  ∀ pop ∈ q.pops ops, (pop.projectIn l).isSome = true → (pop.found.lane l).Pending p

instance (q : LaneQueue α) (p : ProjectId) : Decidable (q.Pending p) :=
  inferInstanceAs (Decidable (∃ e ∈ q.entries, e.projectId = p))

instance (q : FairQueue α) (l : PriorityLane) (ops : List (FairOp α)) (p : ProjectId) :
    Decidable (q.PendingThroughout l ops p) :=
  inferInstanceAs (Decidable (∀ pop ∈ q.pops ops, _ → _))

/-- The turn a pop gives in lane `l`: the project served and those behind it. -/
def FairPop.turn (l : PriorityLane) (p : FairPop α) : Option (ProjectId × List ProjectId) :=
  (p.projectIn l).map fun project => (project, (p.found.lane l).projectRing.tail)

namespace FairQueue.Sound

variable {q : FairQueue α}

/-- A pop serves lane `l`: the project at the head of its ring, which goes to the end or
leaves. Or it leaves the ring of the lane. -/
theorem pop_ring (h : q.Sound) (l : PriorityLane) {now : Time} {out : Option (FairEntry α)}
    {q' : FairQueue α} (hpop : q.pop now = (out, q')) :
    (∃ p ring, FairPop.projectIn l ⟨q, now, out⟩ = some p ∧ (q.lane l).projectRing = p :: ring ∧
      ((q'.lane l).projectRing = ring ∨ (q'.lane l).projectRing = ring ++ [p])) ∨
    (FairPop.projectIn l ⟨q, now, out⟩ = none ∧
      (q'.lane l).projectRing = (q.lane l).projectRing) := by
  -- whichever lane the entry came from
  have htook : ∀ l' e, out = some e → FairQueue.Took q l' e q' →
      (∃ p ring, FairPop.projectIn l ⟨q, now, out⟩ = some p ∧
        (q.lane l).projectRing = p :: ring ∧
        ((q'.lane l).projectRing = ring ∨ (q'.lane l).projectRing = ring ++ [p])) ∨
      (FairPop.projectIn l ⟨q, now, out⟩ = none ∧
        (q'.lane l).projectRing = (q.lane l).projectRing) := by
    intro l' e hout htook
    have hlane : e.lane = l' := htook.homed h
    by_cases heq : l' = l
    · subst heq
      obtain ⟨p, ring, rest, hring, hbucket, hafter⟩ := LaneQueue.pop_cases htook.lane
      have hhome := (((h.lanes l').buckets p _ hbucket).homed e List.mem_cons_self).1
      left
      refine ⟨p, ring, ?_, hring, hafter⟩
      simp [FairPop.projectIn, hout, hlane, hhome]
    · have hother : l = l'.other := by
        cases l <;> cases l' <;> first | rfl | exact absurd rfl heq
      right
      constructor
      · simp [FairPop.projectIn, hout, hlane, heq]
      · rw [hother, htook.other]
  rcases FairQueue.pop_cases h hpop with ⟨_, _, _, e, hout, htaken⟩ | ⟨_, _, hcase⟩
  · exact htook _ e hout htaken
  · rcases hcase with ⟨hout, _, hlanes, _⟩ | ⟨k, e, hout, htaken, _⟩
    · right
      exact ⟨by simp [FairPop.projectIn, hout], by rw [hlanes]⟩
    · exact htook _ e hout htaken

/-- A push leaves the ring of a lane, or lets a new project join at its end. -/
theorem push_ring (h : q.Sound) (l : PriorityLane) (e : FairEntry α) :
    ((q.apply (.push e)).2.lane l).projectRing = (q.lane l).projectRing ∨
    (e.projectId ∉ (q.lane l).projectRing ∧
      ((q.apply (.push e)).2.lane l).projectRing = (q.lane l).projectRing ++ [e.projectId]) := by
  simp only [FairQueue.apply]
  split
  · next q' hpush =>
      unfold FairQueue.push at hpush
      split at hpush
      · cases hpush
      · split at hpush
        · cases hpush
        · obtain rfl := Except.ok.inj hpush
          show ((q.setLane e.lane ((q.lane e.lane).push e)).lane l).projectRing = _ ∨
            _ ∧ ((q.setLane e.lane ((q.lane e.lane).push e)).lane l).projectRing = _
          by_cases heq : e.lane = l
          · have hlane : (q.setLane e.lane ((q.lane e.lane).push e)).lane l = (q.lane l).push e := by
              rw [heq]
              cases l <;> rfl
            rw [hlane]
            rcases LaneQueue.push_ring (q.lane l) e with hsame | ⟨hnone, hjoin⟩
            · exact Or.inl hsame
            · refine Or.inr ⟨?_, hjoin⟩
              rw [(h.lanes l).ring, hnone]
              simp
          · have hlane : (q.setLane e.lane ((q.lane e.lane).push e)).lane l = q.lane l := by
              cases hl : e.lane <;> cases l <;> first | rfl | exact absurd hl heq
            rw [hlane]
            exact Or.inl rfl
  · exact Or.inl rfl

/-- **Refinement.** A history without removals is a number of rounds of the lane's ring. -/
theorem rounds (h : q.Sound) (l : PriorityLane) {ops : List (FairOp α)}
    (hops : ∀ op ∈ ops, op.isRemove = false) :
    ∃ ring', Rounds (q.lane l).projectRing ((q.pops ops).filterMap (·.turn l)) ring' := by
  induction ops generalizing q with
  | nil => exact ⟨_, .nil _⟩
  | cons op ops ih =>
      have hrest : ∀ op ∈ ops, op.isRemove = false :=
        fun op' hop' => hops op' (List.mem_cons_of_mem _ hop')
      have hnext : (q.apply op).2.Sound := (h.apply (l := (op, (q.apply op).1)) rfl).1
      obtain ⟨ring', hrounds⟩ := ih hnext hrest
      refine ⟨ring', ?_⟩
      cases op with
      | push e =>
          rcases h.push_ring l e with hsame | ⟨hout, hjoin⟩
          · rw [hsame] at hrounds
            exact hrounds
          · rw [hjoin] at hrounds
            exact .join hout hrounds
      | pop now =>
          simp only [FairQueue.pops]
          have hpop : q.pop now = ((q.pop now).1, (q.pop now).2) := rfl
          rcases h.pop_ring l hpop with ⟨p, ring, hserved, hring, hafter⟩ | ⟨hnone, hsame⟩
          · have hturn : FairPop.turn l ⟨q, now, (q.pop now).1⟩ = some (p, ring) := by
              simp [FairPop.turn, hserved, hring]
            rw [List.filterMap_cons_some hturn, hring]
            rcases hafter with hleft | hback
            · exact .leave (hleft ▸ hrounds)
            · exact .again (hback ▸ hrounds)
          · have hturn : FairPop.turn l ⟨q, now, (q.pop now).1⟩ = none := by
              simp [FairPop.turn, hnone]
            rw [List.filterMap_cons_none hturn]
            exact hsame ▸ hrounds
      | remove j => cases hops _ List.mem_cons_self
      | getMut j payload =>
          have hsame : ((q.setPayload j payload).lane l).projectRing =
              (q.lane l).projectRing := by
            unfold FairQueue.setPayload
            split <;> cases l <;> rfl
          exact hsame ▸ hrounds
      | iterMut visit =>
          have hsame : ((q.setPayloads visit).lane l).projectRing = (q.lane l).projectRing := by
            cases l <;> rfl
          exact hsame ▸ hrounds

/-- The projects of the turns are the projects served. -/
theorem turns_served (q : FairQueue α) (l : PriorityLane) (ops : List (FairOp α)) :
    ((q.pops ops).filterMap (·.turn l)).map Prod.fst = q.servedIn l ops := by
  unfold FairQueue.servedIn
  rw [List.map_filterMap]
  refine List.filterMap_congr ?_
  intro pop _
  unfold FairPop.turn
  cases pop.projectIn l <;> rfl

/-- A project that is pending at every pop of the lane waits at every turn. -/
theorem waits (h : q.Sound) {l : PriorityLane} {ops : List (FairOp α)} {p : ProjectId}
    (hpending : q.PendingThroughout l ops p) :
    ∀ turn ∈ (q.pops ops).filterMap (·.turn l), p ∈ waiting turn := by
  intro turn hturn
  obtain ⟨pop, hpop, hsome⟩ := List.mem_filterMap.mp hturn
  obtain ⟨hfound, hanswer⟩ := h.pops ops pop hpop
  obtain ⟨project, hproject, rfl⟩ := Option.map_eq_some_iff.mp hsome
  have hmem := (hfound.lanes l).mem_ring_iff.mpr (hpending pop hpop (by rw [hproject]; rfl))
  have hresult : pop.found.pop pop.now = (pop.answer, (pop.found.pop pop.now).2) := by
    rw [hanswer]
  rcases hfound.pop_ring l hresult with ⟨p', ring, hserved, hring, _⟩ | ⟨hnone, _⟩
  · rw [hproject] at hserved
    obtain rfl := Option.some.inj hserved
    rw [hring] at hmem
    simpa [waiting, hring] using hmem
  · rw [hproject] at hnone
    cases hnone

end FairQueue.Sound

/-- **Projects take turns.** In every state of the fairness buffer, a pop returns the
buffered entry of its project with the least `(created_at, job_id)` in its lane. And from
every such state, in any history of pushes and pops: two projects that are pending at
every pop of a lane are served there in strict alternation, each exactly once between two
consecutive turns of the other; and when `n` projects are pending throughout, any `n`
consecutive pops of the lane serve different projects. -/
theorem projects_take_turns {config : FairQueueConfig} {q : FairQueue α}
    (hq : (fairQueue config).Reachable q) :
    (∀ now e q', q.pop now = (some e, q') → e ∈ (q.lane e.lane).entries ∧
      ∀ x ∈ (q.lane e.lane).entries, x.projectId = e.projectId → x = e ∨
        e.createdAt < x.createdAt ∨ (e.createdAt = x.createdAt ∧ e.jobId.val < x.jobId.val)) ∧
    ∀ (l : PriorityLane) (ops : List (FairOp α)), (∀ op ∈ ops, op.isRemove = false) →
      (∀ a b, a ≠ b → q.PendingThroughout l ops a → q.PendingThroughout l ops b →
        ((q.servedIn l ops).filter fun p => p = a ∨ p = b).IsChain (· ≠ ·) ∧
        ∀ pre mid post, q.servedIn l ops = pre ++ a :: (mid ++ a :: post) → a ∉ mid →
          mid.count b = 1) ∧
      ∀ projects : List ProjectId, projects.Nodup →
        (∀ p ∈ projects, q.PendingThroughout l ops p) →
        ∀ window, window <:+: q.servedIn l ops → window.length = projects.length →
          window.Nodup := by
  have hs := FairQueue.reachable_sound hq
  constructor
  · intro now e q' hpop
    have hfirst : ∀ l, FairQueue.Took q l e q' → e ∈ (q.lane e.lane).entries ∧
        ∀ x ∈ (q.lane e.lane).entries, x.projectId = e.projectId → x = e ∨
          LaneQueue.before e x = true := by
      intro l htook
      rw [htook.homed hs]
      exact (hs.lanes l).pop_first htook.lane
    have htaken : ∃ l, FairQueue.Took q l e q' := by
      rcases FairQueue.pop_cases hs hpop with ⟨_, _, _, e', hout, htook⟩ | ⟨_, _, hcase⟩
      · obtain rfl := Option.some.inj hout
        exact ⟨_, htook⟩
      · rcases hcase with ⟨hout, _⟩ | ⟨k, e', hout, htook, _⟩
        · cases hout
        · obtain rfl := Option.some.inj hout
          exact ⟨_, htook⟩
    obtain ⟨l, htook⟩ := htaken
    obtain ⟨hmem, hleast⟩ := hfirst l htook
    refine ⟨hmem, ?_⟩
    intro x hx hproject
    refine (hleast x hx hproject).imp_right ?_
    intro hbefore
    simpa [LaneQueue.before] using hbefore
  · intro l ops hops
    obtain ⟨ring', hrounds⟩ := hs.rounds l hops
    have hnodup := (hs.lanes l).ringNodup
    have hserved := FairQueue.Sound.turns_served q l ops
    constructor
    · intro a b hab ha hb
      have hchain := hrounds.alternates hnodup hab (hs.waits ha) (hs.waits hb)
      rw [hserved] at hchain
      refine ⟨hchain, ?_⟩
      intro pre mid post hsplit hmid
      rw [← hserved] at hsplit
      exact hrounds.once hnodup hab.symm (hs.waits hb) (hs.waits ha) hsplit hmid
    · intro projects hprojects hpending window hwindow hlen
      rw [← hserved] at hwindow
      exact hrounds.distinct hnodup hprojects (fun p hp => hs.waits (hpending p hp)) hwindow hlen

namespace Sample

def project' : ProjectId := ⟨"proj_b", by decide⟩

/-- An entry of project `p`, created at time `created`. -/
def entryOf (j : JobId) (p : ProjectId) (created : Time) : FairEntry Unit :=
  ⟨j, p, .interactive, created, 10, ()⟩

/-- Two jobs of one project and one of another, and two pops. -/
def threeJobs : List (FairOp Unit) :=
  [.push (entryOf ⟨"job_a2", by decide⟩ project 2),
    .push (entryOf ⟨"job_b1", by decide⟩ project' 1),
    .push (entryOf ⟨"job_a1", by decide⟩ project 1), .pop 10, .pop 10]

/-- A queue for eight entries, with weights three to one. -/
def wideBuffer : FairQueueConfig := ⟨8, 3, 1, 300000000⟩

end Sample

/-- The two pops serve two projects. -/
theorem projects_take_turns_two :
    ((FairQueue.ofConfig Sample.wideBuffer : FairQueue Unit).servedIn .interactive
      Sample.threeJobs).Nodup := by
  have hreach : (fairQueue (α := Unit) Sample.wideBuffer).Reachable
      (FairQueue.ofConfig Sample.wideBuffer) := .init rfl
  refine ((projects_take_turns hreach).2 .interactive Sample.threeJobs ?_).2
    [Sample.project, Sample.project'] ?_ ?_ _ (List.infix_refl _) ?_
  · decide
  · decide
  · decide +kernel
  · decide +kernel

end RunAnywhere
