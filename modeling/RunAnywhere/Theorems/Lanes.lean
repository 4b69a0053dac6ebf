import Mathlib.Data.List.Count
import RunAnywhere.Logic.Cycle
import RunAnywhere.Scheduler.Turns

/-!
# Both lanes keep moving

The lanes of the fairness buffer are served by a cyclic schedule, and a batch entry that
has aged may jump it. Only pops move the cursor and the aging flag, so the pops of a
history form a chain (`FairQueue.pops_chain`) whatever is pushed and removed in between:

* without overrides and empty lanes the pops follow the schedule (`lanes_of_calm`);
* while interactive work is there, each pop that does not serve it uses up a batch slot or
  the one override before it (`FairPop.patience`).

`lanes_keep_moving` puts the guarantees together.
-/

namespace RunAnywhere

open Logic

variable {α : Type}

/-- The schedule of a configuration: its interactive slots, then its batch slots. -/
def FairQueueConfig.laneSchedule (config : FairQueueConfig) : List PriorityLane :=
  List.replicate config.interactiveWeight .interactive ++
    List.replicate config.batchWeight .batch

/-- The lane a pop served. -/
def FairPop.servedLane (p : FairPop α) : Option PriorityLane := p.answer.map (·.lane)

/-- Pop `p'` is the next one after `p`: it finds the cursor and the flag `p` left. -/
def FairPop.Leads (p p' : FairPop α) : Prop :=
  p'.found.cursor = (p.found.pop p.now).2.cursor ∧
    p'.found.lastPopForcedAgedBatch = (p.found.pop p.now).2.lastPopForcedAgedBatch

/-! ## The chain of pops -/

namespace FairQueue

/-- What decides which lane is served: the schedule, the cursor and the flag. -/
def pointer (q : FairQueue α) : List PriorityLane × Nat × Bool :=
  (q.schedule, q.cursor, q.lastPopForcedAgedBatch)

/-- An operation other than a pop leaves the pointer. -/
theorem apply_pointer (q : FairQueue α) {op : FairOp α} (hop : ∀ now, op ≠ .pop now) :
    (q.apply op).2.pointer = q.pointer := by
  cases op with
  | pop now => exact absurd rfl (hop now)
  | push e =>
      simp only [apply]
      split
      · next q' hpush =>
          unfold push at hpush
          split at hpush
          · cases hpush
          · split at hpush
            · cases hpush
            · obtain rfl := Except.ok.inj hpush
              cases e.lane <;> rfl
      · rfl
  | remove j =>
      simp only [apply, remove]
      cases hi : q.interactive.remove j with
      | some found => rfl
      | none => cases hb : q.batch.remove j <;> rfl
  | getMut j payload =>
      simp only [apply, setPayload]
      split <;> rfl
  | iterMut visit => rfl

/-- An operation other than a pop adds no pop to the history. -/
theorem pops_cons_of_ne (q : FairQueue α) {op : FairOp α} (hop : ∀ now, op ≠ .pop now)
    (ops : List (FairOp α)) : q.pops (op :: ops) = (q.apply op).2.pops ops := by
  cases op with
  | pop now => exact absurd rfl (hop now)
  | push _ | remove _ | getMut _ _ | iterMut _ => rfl

/-- A pop leaves the schedule. -/
theorem pop_schedule {q q' : FairQueue α} {now : Time} {out : Option (FairEntry α)} (hs : q.Sound)
    (h : q.pop now = (out, q')) : q'.schedule = q.schedule := by
  rcases pop_cases hs h with ⟨_, _, _, _, _, htook⟩ | ⟨_, _, ⟨_, _, _, hsame⟩ | ⟨_, _, _, htook, _⟩⟩
  · exact htook.schedule
  · exact hsame
  · exact htook.schedule

/-- **The chain.** The first pop finds the pointer of the start, each other pop the one
its predecessor left, and all of them the same schedule. -/
theorem pops_chain {q : FairQueue α} (hs : q.Sound) (ops : List (FairOp α)) :
    (q.pops ops).IsChain FairPop.Leads ∧
    (∀ p ∈ (q.pops ops).head?, p.found.pointer = q.pointer) ∧
    ∀ p ∈ q.pops ops, p.found.schedule = q.schedule := by
  induction ops generalizing q with
  | nil => exact ⟨.nil, nofun, nofun⟩
  | cons op ops ih =>
      have hnext : (q.apply op).2.Sound := (hs.apply (l := (op, (q.apply op).1)) rfl).1
      obtain ⟨hchain, hhead, hschedule⟩ := ih hnext
      by_cases hop : ∃ now, op = .pop now
      · obtain ⟨now, rfl⟩ := hop
        have hpop : q.pop now = ((q.pop now).1, (q.pop now).2) := rfl
        have hsame : (q.pop now).2.schedule = q.schedule := pop_schedule hs hpop
        simp only [pops]
        refine ⟨?_, ?_, ?_⟩
        · refine List.isChain_cons.mpr ⟨?_, hchain⟩
          intro p hp
          have hpointer := hhead p hp
          exact ⟨congrArg (·.2.1) hpointer, congrArg (·.2.2) hpointer⟩
        · intro p hp
          obtain rfl := Option.some.inj hp
          rfl
        · intro p hp
          rcases List.mem_cons.mp hp with rfl | hp
          · rfl
          · exact (hschedule p hp).trans hsame
      · have hother : ∀ now, op ≠ .pop now := fun now heq => hop ⟨now, heq⟩
        have hpointer := q.apply_pointer hother
        rw [q.pops_cons_of_ne hother]
        refine ⟨hchain, fun p hp => (hhead p hp).trans hpointer, ?_⟩
        intro p hp
        exact (hschedule p hp).trans (congrArg (·.1) hpointer)

/-- The queue of a configuration has its schedule. -/
theorem new_schedule {config : FairQueueConfig} {q : FairQueue α} (h : new config = .ok q) :
    q.schedule = config.laneSchedule ∧ 0 < config.interactiveWeight := by
  obtain ⟨haccepts, rfl⟩ := new_eq_ok_iff.mp h
  exact ⟨rfl, haccepts.interactive⟩

end FairQueue

/-! ## One pop, by the lanes -/

namespace FairPop

variable {p p' : FairPop α}

/-- A pop that is sound and answered as the queue answers. -/
def Faithful (p : FairPop α) : Prop :=
  p.found.Sound ∧ p.answer = (p.found.pop p.now).1

theorem Faithful.pop (h : p.Faithful) :
    p.found.pop p.now = (p.answer, (p.found.pop p.now).2) := by
  rw [h.2]

/-- What a pop did, in terms of what it answered and of what the next one finds. -/
theorem Faithful.cases (h : p.Faithful) :
    (p.found.overrides p.now = true ∧ p.servedLane = some .batch ∧
      ∀ p', p.Leads p' → p'.found.cursor = p.found.cursor ∧
        p'.found.lastPopForcedAgedBatch = true) ∨
    (p.found.overrides p.now = false ∧ p.found.entries = [] ∧
      ∀ p', p.Leads p' → p'.found.lastPopForcedAgedBatch = false) ∨
    (p.found.overrides p.now = false ∧
      ∃ k, p.servedLane = some (p.found.slot k) ∧
        (p.found.lane (p.found.slot k)).entries ≠ [] ∧
        (∀ i < k, (p.found.lane (p.found.slot i)).entries = []) ∧
        ∀ p', p.Leads p' →
          p'.found.cursor = (p.found.cursor + k + 1) % p.found.schedule.length ∧
          p'.found.lastPopForcedAgedBatch = false) := by
  have hsome : ∀ l e, p.answer = some e → FairQueue.Took p.found l e (p.found.pop p.now).2 →
      p.servedLane = some l ∧ (p.found.lane l).entries ≠ [] := by
    intro l e hout htook
    constructor
    · unfold servedLane
      rw [hout, ← htook.homed h.1]
      rfl
    · have hmem := (LaneQueue.mem_pop htook.lane).1
      exact List.ne_nil_of_mem hmem
  rcases FairQueue.pop_cases h.1 h.pop with ⟨hforce, hflag, hcursor, e, hout, htook⟩ |
      ⟨hplain, hflag, hcase⟩
  · left
    refine ⟨hforce, (hsome _ e hout htook).1, ?_⟩
    intro p' hlead
    exact ⟨hlead.1.trans hcursor, hlead.2.trans hflag⟩
  · right
    rcases hcase with ⟨_, hempty, _, _⟩ | ⟨k, e, hout, htook, hcursor, hskip⟩
    · left
      exact ⟨hplain, hempty, fun p' hlead => hlead.2.trans hflag⟩
    · right
      obtain ⟨hserved, hsomething⟩ := hsome _ e hout htook
      refine ⟨hplain, k, hserved, hsomething, hskip, ?_⟩
      intro p' hlead
      exact ⟨hlead.1.trans hcursor, hlead.2.trans hflag⟩

/-- **No two overrides.** -/
theorem Faithful.no_second (h : p.Faithful) (hlead : p.Leads p') :
    ¬ (p.found.overrides p.now = true ∧ p'.found.overrides p'.now = true) := by
  rintro ⟨hfirst, hsecond⟩
  rcases h.cases with ⟨_, _, hnext⟩ | ⟨hplain, _⟩ | ⟨hplain, _⟩
  · have hflag := (hnext p' hlead).2
    simp [FairQueue.overrides, hflag] at hsecond
  · rw [hplain] at hfirst
    cases hfirst
  · rw [hplain] at hfirst
    cases hfirst

/-- With both lanes filled and nothing aged, a pop serves the slot at the cursor. -/
theorem Faithful.calm (h : p.Faithful) (hfilled : ∀ l, (p.found.lane l).entries ≠ [])
    (hcalm : p.found.aged p.now = false) : p.servedLane = some (p.found.slot 0) ∧
      ∀ p', p.Leads p' → p'.found.cursor = (p.found.cursor + 1) % p.found.schedule.length := by
  rcases h.cases with ⟨hforce, _⟩ | ⟨_, hempty, _⟩ | ⟨_, k, hserved, _, hskip, hnext⟩
  · simp [FairQueue.overrides, hcalm] at hforce
  · refine absurd ?_ (hfilled .interactive)
    exact (List.append_eq_nil_iff.mp hempty).1
  · cases k with
    | zero => exact ⟨hserved, fun p' hlead => (hnext p' hlead).1⟩
    | succ k => exact absurd (hskip 0 (Nat.succ_pos k)) (hfilled _)

end FairPop

/-! ## The schedule of a configuration -/

variable {config : FairQueueConfig}

theorem FairQueueConfig.laneSchedule_length (config : FairQueueConfig) :
    config.laneSchedule.length = config.interactiveWeight + config.batchWeight := by
  simp [laneSchedule]

/-- The interactive slots come first. -/
theorem FairQueue.slot_zero {q : FairQueue α} (hs : q.Sound)
    (hschedule : q.schedule = config.laneSchedule) :
    q.slot 0 = if q.cursor < config.interactiveWeight then .interactive else .batch := by
  have hcursor := hs.cursor
  unfold FairQueue.slot
  rw [Nat.add_zero, Nat.mod_eq_of_lt hcursor, hschedule, List.getD_eq_getElem?_getD]
  rw [hschedule, config.laneSchedule_length] at hcursor
  unfold FairQueueConfig.laneSchedule
  by_cases hlt : q.cursor < config.interactiveWeight
  · rw [List.getElem?_append_left (by simpa using hlt)]
    simp [hlt]
  · have hrest : q.cursor - config.interactiveWeight < config.batchWeight := by omega
    rw [List.getElem?_append_right (by simpa using Nat.not_lt.mp hlt)]
    simp [hlt, hrest]

/-- How many pops may pass before interactive work is served: two for each batch slot up to
the end of the schedule, and one for an override. -/
def FairQueueConfig.patience (config : FairQueueConfig) (p : FairPop α) : Nat :=
  2 * (if p.found.cursor < config.interactiveWeight then 0
    else config.interactiveWeight + config.batchWeight - p.found.cursor) +
    (if p.found.lastPopForcedAgedBatch then 0 else 1)

/-- **Patience.** While the interactive lane has an entry, a pop that does not serve it
leaves less patience to the next one. -/
theorem FairPop.Faithful.patience_lt {p : FairPop α} (h : p.Faithful)
    (hwi : 0 < config.interactiveWeight) (hschedule : p.found.schedule = config.laneSchedule)
    (hwork : (p.found.lane .interactive).entries ≠ [])
    (hnot : p.servedLane ≠ some .interactive) :
    0 < config.patience p ∧ ∀ p', p.Leads p' → config.patience p' < config.patience p := by
  have hlen : p.found.schedule.length = config.interactiveWeight + config.batchWeight := by
    rw [hschedule, config.laneSchedule_length]
  have hbound := h.1.cursor
  rw [hlen] at hbound
  rcases h.cases with ⟨hforce, _, hnext⟩ | ⟨_, hempty, _⟩ | ⟨_, k, hserved, hfilled, hskip, hnext⟩
  · -- the override is used up
    have hflag : p.found.lastPopForcedAgedBatch = false := by
      simpa using (Bool.and_eq_true_iff.mp hforce).2
    simp only [FairQueueConfig.patience, hflag]
    refine ⟨by simp, ?_⟩
    intro p' hlead
    obtain ⟨hcursor, hflag'⟩ := hnext p' hlead
    simp [hcursor, hflag']
  · exact absurd (List.append_eq_nil_iff.mp hempty).1 hwork
  · have hbatch : p.found.slot k = .batch := by
      cases hslot : p.found.slot k with
      | interactive =>
          rw [hslot] at hserved
          exact absurd hserved hnot
      | batch => rfl
    rw [hbatch] at hfilled
    -- a skipped slot would be of an empty lane, and both lanes have entries
    have hk : k = 0 := by
      by_contra hne
      have hfirst := hskip 0 (Nat.pos_of_ne_zero hne)
      cases hslot : p.found.slot 0 with
      | interactive =>
          rw [hslot] at hfirst
          exact hwork hfirst
      | batch =>
          rw [hslot] at hfirst
          exact hfilled hfirst
    subst hk
    rw [FairQueue.slot_zero h.1 hschedule] at hbatch
    have hge : ¬ p.found.cursor < config.interactiveWeight := by
      intro hlt
      rw [if_pos hlt] at hbatch
      cases hbatch
    simp only [FairQueueConfig.patience, if_neg hge]
    refine ⟨by omega, ?_⟩
    intro p' hlead
    obtain ⟨hcursor, hflag⟩ := hnext p' hlead
    rw [hlen, Nat.add_zero] at hcursor
    simp only [hflag, Bool.false_eq_true, if_false, hcursor]
    by_cases hlast : p.found.cursor + 1 = config.interactiveWeight + config.batchWeight
    · rw [hlast, Nat.mod_self, if_pos hwi]
      omega
    · rw [Nat.mod_eq_of_lt (by omega), if_neg (by omega)]
      omega

/-- In calm, the pops of a window follow the schedule. -/
theorem lanes_of_calm {w : List (FairPop α)} {schedule : List PriorityLane}
    (hchain : w.IsChain FairPop.Leads) (hfaithful : ∀ p ∈ w, p.Faithful)
    (hschedule : ∀ p ∈ w, p.found.schedule = schedule)
    (hcalm : ∀ p ∈ w, (∀ l, (p.found.lane l).entries ≠ []) ∧ p.found.aged p.now = false)
    {c : Nat} (hc : ∀ p ∈ w.head?, p.found.cursor = c) :
    w.map (·.servedLane) = (slots schedule .interactive c w.length).map some := by
  induction w generalizing c with
  | nil => rfl
  | cons p rest ih =>
      have hp : p ∈ p :: rest := List.mem_cons_self
      obtain ⟨hserved, hnext⟩ := (hfaithful p hp).calm (hcalm p hp).1 (hcalm p hp).2
      obtain rfl : p.found.cursor = c := hc p rfl
      have hrest := ih (List.isChain_cons.mp hchain).2
        (fun q hq => hfaithful q (List.mem_cons_of_mem _ hq))
        (fun q hq => hschedule q (List.mem_cons_of_mem _ hq))
        (fun q hq => hcalm q (List.mem_cons_of_mem _ hq))
        (c := (p.found.cursor + 1) % schedule.length)
        (fun q hq => by
          rw [hnext q ((List.isChain_cons.mp hchain).1 q hq), hschedule p hp])
      rw [List.map_cons, List.length_cons, slots_succ, List.map_cons, hrest, hserved]
      unfold FairQueue.slot
      rw [hschedule p hp, Nat.add_zero]

/-- **Both lanes keep moving.** For every accepted configuration and every history of
operations: no two consecutive pops are aging overrides; while both lanes have entries and
no batch entry is aged, `wi + wb` consecutive pops serve `wi` interactive and `wb` batch
entries; while the interactive lane has an entry, `2 * wb + 2` consecutive pops serve it;
and while some batch entry is aged, two consecutive pops serve the batch lane. -/
theorem lanes_keep_moving {config : FairQueueConfig} {start : FairQueue α}
    (hnew : FairQueue.new config = .ok start) (ops : List (FairOp α)) :
    (start.pops ops).IsChain (fun p p' =>
      ¬ (p.found.overrides p.now = true ∧ p'.found.overrides p'.now = true)) ∧
    ∀ w, w <:+: start.pops ops →
      (w.length = config.interactiveWeight + config.batchWeight →
        (∀ p ∈ w, (∀ l, (p.found.lane l).entries ≠ []) ∧ p.found.aged p.now = false) →
        w.countP (fun p => p.servedLane = some .interactive) = config.interactiveWeight ∧
        w.countP (fun p => p.servedLane = some .batch) = config.batchWeight) ∧
      (w.length = 2 * config.batchWeight + 2 →
        (∀ p ∈ w, (p.found.lane .interactive).entries ≠ []) →
        ∃ p ∈ w, p.servedLane = some .interactive) ∧
      (w.length = 2 → (∀ p ∈ w, p.found.aged p.now = true) →
        ∃ p ∈ w, p.servedLane = some .batch) := by
  have hs := (FairQueue.new_sound hnew).1
  obtain ⟨hstart, hwi⟩ := FairQueue.new_schedule hnew
  obtain ⟨hchain, _, hsame⟩ := FairQueue.pops_chain hs ops
  have hfaithful : ∀ p ∈ start.pops ops, p.Faithful := hs.pops ops
  constructor
  · refine hchain.imp_of_mem_imp ?_
    intro p p' hp _ hlead
    exact (hfaithful p hp).no_second hlead
  · intro w hw
    have hchain' : w.IsChain FairPop.Leads := hchain.infix hw
    have hfaithful' : ∀ p ∈ w, p.Faithful := fun p hp => hfaithful p (hw.mem hp)
    have hschedule : ∀ p ∈ w, p.found.schedule = config.laneSchedule :=
      fun p hp => (hsame p (hw.mem hp)).trans hstart
    refine ⟨?_, ?_, ?_⟩
    · intro hlen hcalm
      cases w with
      | nil =>
          simp only [List.length_nil] at hlen
          omega
      | cons p rest =>
          -- a whole turn of the schedule
          have hlanes := lanes_of_calm hchain' hfaithful' hschedule hcalm
            (c := p.found.cursor) (fun q hq => by rw [Option.some.inj hq])
          rw [hlen, ← config.laneSchedule_length] at hlanes
          have hperm := slots_perm config.laneSchedule .interactive p.found.cursor
          have hcount : ∀ l : PriorityLane,
              (p :: rest).countP (fun p => p.servedLane = some l) =
                config.laneSchedule.count l := by
            intro l
            have hmap := congrArg (List.count (some l)) hlanes
            rw [List.count_map_of_injective _ _ (Option.some_injective _), hperm.count_eq] at hmap
            rw [← hmap, List.count, List.countP_map]
            refine List.countP_congr ?_
            intro p _
            simp
          rw [hcount, hcount]
          simp [FairQueueConfig.laneSchedule, List.count_append, List.count_replicate]
    · intro hlen hwork
      cases w with
      | nil =>
          simp only [List.length_nil] at hlen
          omega
      | cons p rest =>
          refine exists_of_descent config.patience hchain' ?_ rfl ?_
          · intro q hq hnot
            exact (hfaithful' q hq).patience_lt hwi (hschedule q hq) (hwork q hq) hnot
          · rw [hlen]
            unfold FairQueueConfig.patience
            split <;> split <;> omega
    · intro hlen haged
      cases w with
      | nil => cases hlen
      | cons p rest =>
          refine exists_of_descent
            (fun p : FairPop α => if p.found.lastPopForcedAgedBatch then 1 else 0) hchain' ?_ rfl ?_
          · intro q hq hnot
            have hflag : q.found.lastPopForcedAgedBatch = true := by
              by_contra hclear
              rcases (hfaithful' q hq).cases with ⟨_, hserved, _⟩ | ⟨hplain, _⟩ | ⟨hplain, _⟩
              · exact hnot hserved
              · simp [FairQueue.overrides, haged q hq, hclear] at hplain
              · simp [FairQueue.overrides, haged q hq, hclear] at hplain
            rw [if_pos hflag]
            refine ⟨Nat.one_pos, ?_⟩
            intro q' hlead
            have hclear : q'.found.lastPopForcedAgedBatch = false := by
              rcases (hfaithful' q hq).cases with ⟨hforce, _⟩ | ⟨_, _, hnext⟩ | ⟨_, _, _, _, _, hnext⟩
              · simp [FairQueue.overrides, hflag] at hforce
              · exact hnext q' hlead
              · exact (hnext q' hlead).2
            simp [hclear]
          · rw [hlen]
            split <;> omega

namespace Sample

/-- The default weights, aging after 300 seconds. -/
def laneBuffer : FairQueueConfig := ⟨8, 3, 1, 300000000⟩

/-- An aged batch entry, an interactive one, and two pops. -/
def agedBatch : List (FairOp Unit) :=
  [.push ⟨⟨"job_p1", by decide⟩, project, .batch, 1, 0, ()⟩,
    .push ⟨⟨"job_p2", by decide⟩, project, .batch, 2, 0, ()⟩,
    .push ⟨⟨"job_i1", by decide⟩, project, .interactive, 3, 300000000, ()⟩,
    .pop 300000000, .pop 300000000]

end Sample

/-- One of the two pops serves the batch lane. -/
theorem lanes_keep_moving_aged :
    ∃ p ∈ (FairQueue.ofConfig Sample.laneBuffer : FairQueue Unit).pops Sample.agedBatch,
      p.servedLane = some .batch := by
  have hnew : FairQueue.new Sample.laneBuffer =
      .ok (FairQueue.ofConfig Sample.laneBuffer : FairQueue Unit) := rfl
  refine ((lanes_keep_moving hnew Sample.agedBatch).2 _ (List.infix_refl _)).2.2 ?_ ?_
  · decide +kernel
  · decide +kernel

end RunAnywhere
