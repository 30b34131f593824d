/-
# Outboxes

What a component is for that takes items in and owes a message about each of them to several
destinations.  An item is accepted once, together with one job for each destination.  Jobs are worked
on by calls; a call is known by a token and its job, carries the message of the job's item to the
job's destination, and is answered at most once.  A job is done only after an answer that says so,
and given up only after as many refusals as its destination asks for.  Any number of calls may be
made for one job, also after it is settled: delivery is at least once.

* `State.Sound`, `State.Kept`: the invariant, and what no step takes back.
* `Told`: what the history says is so.
* `promise`: an accepted item has a job for each destination for ever, and a settled job is vouched for
  by the calls.
-/
import Mathlib.Data.List.Nodup
import Hookbox.Lib.Lts

namespace Outbox

/-! ## 1. The machine -/

/-- What has become of a job. -/
inductive Status where
  | owed
  | done
  | givenUp
deriving DecidableEq

/-- To tell a destination about an item. -/
structure Job (ι κ δ : Type) where
  id : κ
  item : ι
  dest : δ
  status : Status

structure State (ι κ δ γ μ : Type) where
  items : List (ι × μ)
  jobs : List (Job ι κ δ)
  calls : List (γ × κ)
  answers : List (γ × κ × Bool)

inductive Action (ι κ δ γ μ : Type) where
  | accept (item : ι) (message : μ) (jobs : List (κ × δ))
  | acknowledge (item : ι)
  | requeue (item : ι) (jobs : List (κ × δ))
  | send (call : γ) (dest : δ) (job : κ) (message : μ)
  | answer (call : γ) (job : κ) (ok : Bool)
  | complete (job : κ)
  | giveUp (job : κ)

/-- What those who hand items in, and the destinations, can see. -/
inductive Seen (ι κ δ γ μ : Type) where
  | accepted (item : ι) (message : μ) (dests : List δ)
  | acknowledged (item : ι)
  | sent (call : γ) (dest : δ) (job : κ) (message : μ)
  | answered (call : γ) (job : κ) (ok : Bool)

variable {ι κ δ γ μ : Type}

/-- New jobs, all of them owed. -/
def newJobs (item : ι) (jobs : List (κ × δ)) : List (Job ι κ δ) :=
  jobs.map fun p => ⟨p.1, item, p.2, .owed⟩

theorem mem_newJobs {item : ι} {jobs : List (κ × δ)} {j : Job ι κ δ} (hj : j ∈ newJobs item jobs) :
    (j.id, j.dest) ∈ jobs ∧ j.item = item ∧ j.status = .owed := by
  obtain ⟨p, hp, rfl⟩ := List.mem_map.mp hj
  exact ⟨hp, rfl, rfl⟩

theorem newJobs_ids (item : ι) (jobs : List (κ × δ)) :
    (newJobs item jobs).map (·.id) = jobs.map (·.1) := by
  simp [newJobs]

namespace State

/-- How often a job was refused. -/
def refusals [DecidableEq κ] (s : State ι κ δ γ μ) (job : κ) : Nat :=
  s.answers.countP fun a => a.2.1 = job ∧ a.2.2 = false

/-- The ids of some new jobs are in use neither by an old one nor twice. -/
def Fresh (s : State ι κ δ γ μ) (jobs : List (κ × δ)) : Prop :=
  (s.jobs.map (·.id) ++ jobs.map (·.1)).Nodup

/-- A job that is still owed. -/
def Owed (s : State ι κ δ γ μ) (j : Job ι κ δ) : Prop := j ∈ s.jobs ∧ j.status = .owed

/-- The state with a job settled. -/
def settle [DecidableEq κ] (s : State ι κ δ γ μ) (job : κ) (status : Status) : State ι κ δ γ μ :=
  { s with jobs := s.jobs.map fun j => if j.id = job then { j with status } else j }

end State

open Classical in
/-- One step.  `limit` says after how many refusals a destination may be given up. -/
noncomputable def Action.step [DecidableEq κ] (limit : δ → Nat) (s : State ι κ δ γ μ) :
    Action ι κ δ γ μ → Option (State ι κ δ γ μ)
  | accept item message jobs =>
    if item ∉ s.items.map (·.1) ∧ s.Fresh jobs then
      some { s with items := s.items ++ [(item, message)], jobs := s.jobs ++ newJobs item jobs }
    else none
  | acknowledge item => if item ∈ s.items.map (·.1) then some s else none
  | requeue item jobs =>
    if item ∈ s.items.map (·.1) ∧ s.Fresh jobs then
      some { s with jobs := s.jobs ++ newJobs item jobs }
    else none
  | send call dest job message =>
    if (∃ j ∈ s.jobs, j.id = job ∧ j.dest = dest ∧ (j.item, message) ∈ s.items) ∧
        (call, job) ∉ s.calls then
      some { s with calls := s.calls ++ [(call, job)] }
    else none
  | answer call job ok =>
    if (call, job) ∈ s.calls ∧ ∀ b, (call, job, b) ∉ s.answers then
      some { s with answers := s.answers ++ [(call, job, ok)] }
    else none
  | complete job =>
    if (∃ j, s.Owed j ∧ j.id = job) ∧ ∃ call, (call, job, true) ∈ s.answers then
      some (s.settle job .done)
    else none
  | giveUp job =>
    if ∃ j, s.Owed j ∧ j.id = job ∧ limit j.dest ≤ s.refusals job then
      some (s.settle job .givenUp)
    else none

def Action.seen : Action ι κ δ γ μ → List (Seen ι κ δ γ μ)
  | accept item message jobs => [.accepted item message (jobs.map (·.2))]
  | acknowledge item => [.acknowledged item]
  | requeue _ _ => []
  | send call dest job message => [.sent call dest job message]
  | answer call job ok => [.answered call job ok]
  | complete _ => []
  | giveUp _ => []

/-- The outbox as a transition system. -/
noncomputable def machine [DecidableEq κ] (limit : δ → Nat) :
    Lts (State ι κ δ γ μ) (Action ι κ δ γ μ) (Seen ι κ δ γ μ) where
  step := Action.step limit
  obs _ a := a.seen

/-! ## 2. What a step can do -/

variable {s s' : State ι κ δ γ μ}

/-- What no step takes back: items, jobs and what they are about, and how a job was settled. -/
structure State.Kept (s s' : State ι κ δ γ μ) : Prop where
  items : ∀ p ∈ s.items, p ∈ s'.items
  jobs : ∀ j ∈ s.jobs, ∃ j' ∈ s'.jobs, j'.id = j.id ∧ j'.item = j.item ∧ j'.dest = j.dest ∧
    (j.status ≠ .owed → j'.status = j.status)

theorem State.Kept.refl (s : State ι κ δ γ μ) : s.Kept s :=
  ⟨fun _ hp => hp, fun j hj => ⟨j, hj, rfl, rfl, rfl, fun _ => rfl⟩⟩

section Steps

variable [DecidableEq κ] {limit : δ → Nat} {h es : List (Seen ι κ δ γ μ)}

/-- **Everything a step can do.** -/
inductive Effect (limit : δ → Nat) (s : State ι κ δ γ μ) :
    State ι κ δ γ μ → List (Seen ι κ δ γ μ) → Prop where
  | accept (item : ι) (message : μ) (jobs : List (κ × δ)) (hitem : item ∉ s.items.map (·.1))
      (hfresh : s.Fresh jobs) :
      Effect limit s
        { s with items := s.items ++ [(item, message)], jobs := s.jobs ++ newJobs item jobs }
        [.accepted item message (jobs.map (·.2))]
  | acknowledge (item : ι) (hitem : item ∈ s.items.map (·.1)) :
      Effect limit s s [.acknowledged item]
  | requeue (item : ι) (jobs : List (κ × δ)) (hitem : item ∈ s.items.map (·.1))
      (hfresh : s.Fresh jobs) :
      Effect limit s { s with jobs := s.jobs ++ newJobs item jobs } []
  | send (call : γ) (job : κ) (message : μ) (j : Job ι κ δ) (hj : j ∈ s.jobs) (hid : j.id = job)
      (hmessage : (j.item, message) ∈ s.items) (hnew : (call, job) ∉ s.calls) :
      Effect limit s { s with calls := s.calls ++ [(call, job)] } [.sent call j.dest job message]
  | answer (call : γ) (job : κ) (ok : Bool) (hcall : (call, job) ∈ s.calls)
      (hnew : ∀ b, (call, job, b) ∉ s.answers) :
      Effect limit s { s with answers := s.answers ++ [(call, job, ok)] } [.answered call job ok]
  | settle (job : κ) (status : Status) (j : Job ι κ δ) (hj : s.Owed j) (hid : j.id = job)
      (hdone : status = .done → ∃ call, (call, job, true) ∈ s.answers)
      (hgiven : status = .givenUp → limit j.dest ≤ s.refusals job) :
      Effect limit s (s.settle job status) []

theorem Action.step_cases {a : Action ι κ δ γ μ} (h : a.step limit s = some s') :
    Effect limit s s' a.seen := by
  cases a <;> simp only [step] at h <;> split at h <;> cases h
  case accept item message jobs hc => exact .accept item message jobs hc.1 hc.2
  case acknowledge item hc => exact .acknowledge item hc
  case requeue item jobs hc => exact .requeue item jobs hc.1 hc.2
  case send call dest job message hc =>
    obtain ⟨⟨j, hj, hid, rfl, hmessage⟩, hnew⟩ := hc
    exact .send call job message j hj hid hmessage hnew
  case answer call job ok hc => exact .answer call job ok hc.1 hc.2
  case complete job hc =>
    obtain ⟨⟨j, hj, hid⟩, hcall⟩ := hc
    exact .settle job .done j hj hid (fun _ => hcall) fun hst => by cases hst
  case giveUp job hc =>
    obtain ⟨j, hj, hid, hle⟩ := hc
    exact .settle job .givenUp j hj hid (fun hst => by cases hst) fun _ => hle

/-- A run of one step. -/
theorem exec_single {a : Action ι κ δ γ μ} (h : a.step limit s = some s') :
    (machine limit).exec s [a] = some s' ∧ (machine limit).trace s [a] = a.seen := by
  refine ⟨Lts.exec_cons_eq_some.mpr ⟨s', h, rfl⟩, ?_⟩
  rw [Lts.trace_cons (M := machine limit) h, Lts.trace_nil, List.append_nil]
  rfl

/-! ## 3. What is always so -/

/-- **The invariant.** -/
structure State.Sound (limit : δ → Nat) (s : State ι κ δ γ μ) : Prop where
  ids : (s.jobs.map (·.id)).Nodup
  items : (s.items.map (·.1)).Nodup
  asked : ∀ a ∈ s.answers, (a.1, a.2.1) ∈ s.calls
  done : ∀ j ∈ s.jobs, j.status = .done → ∃ call, (call, j.id, true) ∈ s.answers
  givenUp : ∀ j ∈ s.jobs, j.status = .givenUp → limit j.dest ≤ s.refusals j.id

theorem State.settle_ids (s : State ι κ δ γ μ) (job : κ) (status : Status) :
    (s.settle job status).jobs.map (·.id) = s.jobs.map (·.id) := by
  rw [settle, List.map_map]
  refine List.map_congr_left fun j _ => ?_
  simp only [Function.comp_apply]
  split <;> rfl

/-- A job after one was settled: itself, or the settled one. -/
theorem State.mem_settle {job : κ} {status : Status} {j : Job ι κ δ}
    (hj : j ∈ (s.settle job status).jobs) :
    j ∈ s.jobs ∨ ∃ j₀ ∈ s.jobs, j₀.id = job ∧ j = { j₀ with status } := by
  obtain ⟨j₀, hj₀, rfl⟩ := List.mem_map.mp hj
  by_cases hid : j₀.id = job
  · rw [if_pos hid]
    exact .inr ⟨j₀, hj₀, hid, rfl⟩
  · rw [if_neg hid]
    exact .inl hj₀

/-- Two jobs with one id are the same. -/
theorem State.Sound.job_unique (hs : s.Sound limit) {j j' : Job ι κ δ} (hj : j ∈ s.jobs)
    (hj' : j' ∈ s.jobs) (hid : j.id = j'.id) : j = j' :=
  List.inj_on_of_nodup_map hs.ids hj hj' hid

/-- An item has one message. -/
theorem State.Sound.message_unique (hs : s.Sound limit) {item : ι} {m m' : μ}
    (hm : (item, m) ∈ s.items) (hm' : (item, m') ∈ s.items) : m = m' :=
  congrArg Prod.snd (List.inj_on_of_nodup_map hs.items hm hm' rfl)

/-- New jobs are sound. -/
theorem State.Sound.append (hs : s.Sound limit) {item : ι} {jobs : List (κ × δ)}
    (hfresh : s.Fresh jobs) : { s with jobs := s.jobs ++ newJobs item jobs }.Sound limit where
  ids := by
    rw [List.map_append, newJobs_ids]
    exact hfresh
  items := hs.items
  asked := hs.asked
  done j hj hst := by
    rcases List.mem_append.mp hj with hj | hj
    · exact hs.done j hj hst
    · rw [(mem_newJobs hj).2.2] at hst
      cases hst
  givenUp j hj hst := by
    rcases List.mem_append.mp hj with hj | hj
    · exact hs.givenUp j hj hst
    · rw [(mem_newJobs hj).2.2] at hst
      cases hst

theorem Effect.sound (heff : Effect limit s s' es) (hs : s.Sound limit) : s'.Sound limit := by
  cases heff with
  | accept item message jobs hitem hfresh =>
    refine { hs.append hfresh with items := ?_ }
    rw [List.map_append, List.nodup_append]
    refine ⟨hs.items, List.nodup_singleton _, ?_⟩
    rintro a ha b hb rfl
    rw [List.map_singleton, List.mem_singleton] at hb
    subst hb
    exact hitem ha
  | acknowledge item hitem => exact hs
  | requeue item jobs hitem hfresh => exact hs.append hfresh
  | send call job message j hj hid hmessage hnew =>
    exact { hs with asked := fun a ha => List.mem_append_left _ (hs.asked a ha) }
  | answer call job ok hcall hnew =>
    refine { hs with asked := ?_, done := ?_, givenUp := ?_ }
    · intro a ha
      rcases List.mem_append.mp ha with ha | ha
      · exact hs.asked a ha
      · obtain rfl := List.mem_singleton.mp ha
        exact hcall
    · intro j hj hst
      obtain ⟨c, hc⟩ := hs.done j hj hst
      exact ⟨c, List.mem_append_left _ hc⟩
    · intro j hj hst
      have hle := hs.givenUp j hj hst
      rw [State.refusals, List.countP_append]
      exact Nat.le_add_right_of_le hle
  | settle job status j₀ hj₀ hid₀ hdone hgiven =>
    refine ⟨by rw [s.settle_ids]; exact hs.ids, hs.items, hs.asked, ?_, ?_⟩
    · intro j hj hst
      rcases State.mem_settle hj with hj | ⟨j₁, -, hid, rfl⟩
      · exact hs.done j hj hst
      · exact hid ▸ hdone hst
    · intro j hj hst
      rcases State.mem_settle hj with hj | ⟨j₁, hj₁, hid, rfl⟩
      · exact hs.givenUp j hj hst
      · obtain rfl := hs.job_unique hj₁ hj₀.1 (hid.trans hid₀.symm)
        exact hid ▸ hgiven hst

theorem Effect.kept (heff : Effect limit s s' es) (hs : s.Sound limit) : s.Kept s' := by
  have hall : ∀ {t : State ι κ δ γ μ}, (∀ p ∈ s.items, p ∈ t.items) → (∀ j ∈ s.jobs, j ∈ t.jobs) →
      s.Kept t := fun hitems hjobs =>
    ⟨hitems, fun j hj => ⟨j, hjobs j hj, rfl, rfl, rfl, fun _ => rfl⟩⟩
  cases heff with
  | accept item message jobs hitem hfresh =>
    exact hall (fun p hp => List.mem_append_left _ hp) fun j hj => List.mem_append_left _ hj
  | acknowledge item hitem => exact .refl s
  | requeue item jobs hitem hfresh => exact hall (fun p hp => hp) fun j hj => List.mem_append_left _ hj
  | send call job message j hj hid hmessage hnew => exact hall (fun p hp => hp) fun j hj => hj
  | answer call job ok hcall hnew => exact hall (fun p hp => hp) fun j hj => hj
  | settle job status j₀ hj₀ hid₀ hdone hgiven =>
    refine ⟨fun p hp => hp, fun j hj => ⟨_, List.mem_map_of_mem hj, ?_⟩⟩
    by_cases hid : j.id = job
    · rw [if_pos hid]
      -- The settled job was owed.
      obtain rfl := hs.job_unique hj hj₀.1 (hid.trans hid₀.symm)
      exact ⟨rfl, rfl, rfl, fun hne => absurd hj₀.2 hne⟩
    · rw [if_neg hid]
      exact ⟨rfl, rfl, rfl, fun _ => rfl⟩

/-! ## 4. What the history says -/

/-- The answers in a history. -/
def Seen.answer? : Seen ι κ δ γ μ → Option (γ × κ × Bool)
  | answered call job ok => some (call, job, ok)
  | _ => none

/-- How often a job was refused. -/
def refused (h : List (Seen ι κ δ γ μ)) (job : κ) : Nat :=
  (h.filterMap Seen.answer?).countP fun a => a.2.1 = job ∧ a.2.2 = false

/-- **What the history says is so**, of a run that starts in `s₀` without calls. -/
structure Told (s₀ : State ι κ δ γ μ) (h : List (Seen ι κ δ γ μ)) (s : State ι κ δ γ μ) : Prop where
  accepted : ∀ item message dests, .accepted item message dests ∈ h →
    (item, message) ∈ s.items ∧ ∀ dest ∈ dests, ∃ j ∈ s.jobs, j.item = item ∧ j.dest = dest
  acknowledged : ∀ item, .acknowledged item ∈ h → item ∈ s.items.map (·.1)
  sent : ∀ call dest job message, .sent call dest job message ∈ h →
    ∃ j ∈ s.jobs, j.id = job ∧ j.dest = dest ∧ (j.item, message) ∈ s.items
  items : ∀ p ∈ s.items, p ∈ s₀.items ∨ ∃ dests, .accepted p.1 p.2 dests ∈ h
  calls : ∀ p ∈ s.calls, ∃ dest message, .sent p.1 dest p.2 message ∈ h
  answers : s.answers = h.filterMap Seen.answer?

/-- What was said stays so, and what is new is accounted for. -/
theorem Told.step {s₀ : State ι κ δ γ μ} (ht : Told s₀ h s) (hs : s.Sound limit)
    (heff : Effect limit s s' es) : Told s₀ (h ++ es) s' := by
  have hkept := heff.kept hs
  have hmem : ∀ {item message}, (item, message) ∈ s.items → item ∈ s'.items.map (·.1) :=
    fun hp => List.mem_map_of_mem (f := Prod.fst) (hkept.items _ hp)
  have hjob : ∀ {P : ι → δ → Prop} {j : Job ι κ δ}, j ∈ s.jobs → P j.item j.dest →
      ∃ j' ∈ s'.jobs, j'.id = j.id ∧ P j'.item j'.dest := by
    intro P j hj hP
    obtain ⟨j', hj', hid, hitem, hdest, -⟩ := hkept.jobs j hj
    exact ⟨j', hj', hid, by rw [hitem, hdest]; exact hP⟩
  constructor
  · intro item message dests hev
    rcases List.mem_append.mp hev with hev | hev
    · obtain ⟨hitem, hdests⟩ := ht.accepted item message dests hev
      refine ⟨hkept.items _ hitem, fun dest hdest => ?_⟩
      obtain ⟨j, hj, hP⟩ := hdests dest hdest
      obtain ⟨j', hj', -, hP'⟩ := hjob (P := fun i d => i = item ∧ d = dest) hj hP
      exact ⟨j', hj', hP'⟩
    · cases heff <;> simp only [List.mem_singleton, List.not_mem_nil, reduceCtorEq] at hev
      rename_i item' message' jobs hitem hfresh
      cases hev
      refine ⟨List.mem_append_right _ (List.mem_singleton.mpr rfl), fun dest hdest => ?_⟩
      obtain ⟨p, hp, rfl⟩ := List.mem_map.mp hdest
      exact ⟨⟨p.1, item, p.2, .owed⟩, List.mem_append_right _ (List.mem_map_of_mem hp), rfl, rfl⟩
  · intro item hev
    rcases List.mem_append.mp hev with hev | hev
    · obtain ⟨p, hp, rfl⟩ := List.mem_map.mp (ht.acknowledged item hev)
      exact hmem hp
    · cases heff <;> simp only [List.mem_singleton, List.not_mem_nil, reduceCtorEq] at hev
      cases hev
      assumption
  · intro call dest job message hev
    rcases List.mem_append.mp hev with hev | hev
    · obtain ⟨j, hj, rfl, hP⟩ := ht.sent call dest job message hev
      obtain ⟨j', hj', hid, hdest, hitem⟩ :=
        hjob (P := fun i d => d = dest ∧ (i, message) ∈ s.items) hj hP
      exact ⟨j', hj', hid, hdest, hkept.items _ hitem⟩
    · cases heff <;> simp only [List.mem_singleton, List.not_mem_nil, reduceCtorEq] at hev
      cases hev
      exact ⟨_, by assumption, by assumption, rfl, by assumption⟩
  · intro p hp
    have hold : p ∈ s.items → p ∈ s₀.items ∨ ∃ dests, .accepted p.1 p.2 dests ∈ h ++ es :=
      fun hp => (ht.items p hp).imp_right fun ⟨dests, hev⟩ => ⟨dests, List.mem_append_left _ hev⟩
    cases heff with
    | accept item message jobs hitem hfresh =>
      rcases List.mem_append.mp hp with hp | hp
      · exact hold hp
      · obtain rfl := List.mem_singleton.mp hp
        exact .inr ⟨_, List.mem_append_right _ (List.mem_singleton.mpr rfl)⟩
    | _ => exact hold hp
  · intro p hp
    have hold : p ∈ s.calls → ∃ dest message, .sent p.1 dest p.2 message ∈ h ++ es := fun hp => by
      obtain ⟨dest, message, hev⟩ := ht.calls p hp
      exact ⟨dest, message, List.mem_append_left _ hev⟩
    cases heff with
    | send call job message j hj hid hmessage hnew =>
      rcases List.mem_append.mp hp with hp | hp
      · exact hold hp
      · obtain rfl := List.mem_singleton.mp hp
        exact ⟨_, _, List.mem_append_right _ (List.mem_singleton.mpr rfl)⟩
    | _ => exact hold hp
  · rw [List.filterMap_append, ← ht.answers]
    cases heff <;> simp [Seen.answer?, State.settle]

section Runs

variable {s₀ : State ι κ δ γ μ} (hsound : s₀.Sound limit) (hcalls : s₀.calls = [])
  (hanswers : s₀.answers = []) {as : List (Action ι κ δ γ μ)}
  (hrun : (machine limit).exec s₀ as = some s)

include hsound hcalls hanswers hrun

/-- **Every run is sound, and its history true.** -/
theorem sound_told : s.Sound limit ∧ Told s₀ ((machine limit).trace s₀ as) s := by
  refine Lts.exec_induction (I := fun h s => s.Sound limit ∧ Told s₀ h s) ⟨hsound, ?_⟩ ?_ hrun
  · constructor <;> simp_all
  · rintro h s a s' ⟨hs, ht⟩ hstep
    have heff := Action.step_cases hstep
    exact ⟨heff.sound hs, ht.step hs heff⟩

/-- **The promise of an outbox.**  Once an item was accepted, it has a job for each of its
destinations; if the job is done, then some call has brought the item's message to this destination
and was answered so; if it was given up, then the destination has refused it often enough. -/
theorem promise {item : ι} {message : μ} {dests : List δ}
    (hacc : .accepted item message dests ∈ (machine limit).trace s₀ as) {dest : δ}
    (hdest : dest ∈ dests) :
    ∃ j ∈ s.jobs, j.item = item ∧ j.dest = dest ∧
      (j.status = .done → ∃ call,
        .sent call dest j.id message ∈ (machine limit).trace s₀ as ∧
        .answered call j.id true ∈ (machine limit).trace s₀ as) ∧
      (j.status = .givenUp → limit dest ≤ refused ((machine limit).trace s₀ as) j.id) := by
  obtain ⟨hs, ht⟩ := sound_told hsound hcalls hanswers hrun
  obtain ⟨hitem, hdests⟩ := ht.accepted item message dests hacc
  obtain ⟨j, hj, rfl, rfl⟩ := hdests dest hdest
  refine ⟨j, hj, rfl, rfl, fun hst => ?_, fun hst => ?_⟩
  · obtain ⟨call, hanswer⟩ := hs.done j hj hst
    obtain ⟨dest', message', hsent⟩ := ht.calls _ (hs.asked _ hanswer)
    obtain ⟨j', hj', hid, rfl, hmessage⟩ := ht.sent call dest' j.id message' hsent
    obtain rfl := hs.job_unique hj' hj hid
    obtain rfl := hs.message_unique hmessage hitem
    refine ⟨call, hsent, ?_⟩
    rw [ht.answers, List.mem_filterMap] at hanswer
    obtain ⟨ev, hev, heq⟩ := hanswer
    cases ev <;> simp only [Seen.answer?, Option.some.injEq, Prod.mk.injEq, reduceCtorEq] at heq
    obtain ⟨rfl, rfl, rfl⟩ := heq
    exact hev
  · have hle := hs.givenUp j hj hst
    rwa [State.refusals, ht.answers] at hle

end Runs

end Steps

end Outbox
