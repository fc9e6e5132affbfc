import DiskWarden.Proofs.Dispatch.Calls
import Mathlib.Data.List.Induction

/-!
# Keys do not see each other

Every tick and every result drops tombstones of all keys, so the steps of one key do reach the
table of another.  They cannot be observed there: a tombstone that is dropped early would count at
no later time either.  What a run returns about a key and shows at its indicator is therefore told
by the steps that concern the key alone.
-/

namespace DiskWarden

open RegistryCall

/-! ## Entries at one key -/

namespace Table

variable {κ ν : Type} [DecidableEq κ]

def only (table : Table κ ν) (key : κ) : Table κ ν := table.filter fun entry => entry.1 = key

theorem get?_only (table : Table κ ν) (key : κ) : (table.only key).get? key = table.get? key := by
  induction table with
  | nil => rfl
  | cons entry rest inductionHypothesis =>
      by_cases same : entry.1 = key
      · simp [only, same, get?]
      · simp only [only, List.filter_cons, same, decide_false, Bool.false_eq_true, if_false, get?]
        exact inductionHypothesis

theorem only_put_of_ne {key other : κ} (different : other ≠ key) (table : Table κ ν) (value : ν) :
    (table.put other value).only key = table.only key := by
  induction table with
  | nil => simp [put, only, different]
  | cons entry rest inductionHypothesis =>
      rw [put]
      split
      · next same => simp [only, same, different]
      · rw [only, only, List.filter_cons, List.filter_cons]
        split
        · exact congrArg (entry :: ·) inductionHypothesis
        · exact inductionHypothesis

theorem only_put_self (table : Table κ ν) (key : κ) (value : ν) :
    (table.put key value).only key = (table.only key).put key value := by
  induction table with
  | nil => simp [put, only]
  | cons entry rest inductionHypothesis =>
      rw [put]
      by_cases same : entry.1 = key
      · simp [only, same, put]
      · simp only [same, if_false, only, List.filter_cons, decide_false, Bool.false_eq_true]
        exact inductionHypothesis

end Table

/-! ## Registries that are alike at a key -/

namespace Registry

variable {key : JobKey} {latest now : Instant} {first second : Registry} {call : RegistryCall}

/-- The tombstones at a key that count at a given time. -/
def buried (registry : Registry) (now : Instant) (key : JobKey) : Table JobKey Tombstone :=
  (registry.prune now).tombstones.only key

/-- Two registries have the same job at a key, and from some time on the same tombstones
count there. -/
structure AlikeAt (key : JobKey) (latest : Instant) (first second : Registry) : Prop where
  window_eq : first.window = second.window
  job_eq : first.jobs.get? key = second.jobs.get? key
  buried_eq : ∀ now, latest ≤ now → first.buried now key = second.buried now key

theorem AlikeAt.refl (key : JobKey) (latest : Instant) (registry : Registry) :
    AlikeAt key latest registry registry :=
  ⟨rfl, rfl, fun _ _ => rfl⟩

theorem buried_eq_filter (registry : Registry) (now : Instant) (key : JobKey) :
    registry.buried now key = (registry.tombstones.only key).filter fun entry =>
      now - entry.2.buriedAt < registry.window := by
  rw [buried, prune, Table.only, Table.only, List.filter_filter, List.filter_filter]
  simp only [Bool.and_comm]

theorem get?_prune (registry : Registry) (now : Instant) (key : JobKey) :
    (registry.prune now).tombstones.get? key = (registry.buried now key).get? key :=
  (Table.get?_only _ key).symm

/-- What is dropped at some time counts at no later time. -/
theorem buried_prune (registry : Registry) {now later : Instant} (order : now ≤ later)
    (key : JobKey) : (registry.prune now).buried later key = registry.buried later key := by
  rw [buried_eq_filter, buried_eq_filter, prune, Table.only, Table.only, List.filter_filter,
    List.filter_filter, List.filter_filter]
  apply List.filter_congr
  intro entry _
  by_cases young : later - entry.2.buriedAt < registry.window
  · have younger : now - entry.2.buriedAt < registry.window :=
      Nat.lt_of_le_of_lt (Nat.sub_le_sub_right order _) young
    simp [young, younger]
  · simp [young]

theorem buried_apply_of_ne (registry : Registry) (call : RegistryCall) (other : call.key ≠ key)
    (later : ∀ time, call.time? = some time → time ≤ now) :
    (call.apply registry).buried now key = registry.buried now key := by
  cases call with
  | tick time changed displayName progress =>
      rw [← buried_prune registry (later time rfl) key, buried_eq_filter, buried_eq_filter,
        RegistryCall.apply, tick_tombstones, tick_window]
      rfl
  | finish time changed =>
      have different : changed ≠ key := other
      obtain ⟨reached, tombstones⟩ := finish_tombstones registry time changed
      rw [← buried_prune registry (later time rfl) key, buried_eq_filter, buried_eq_filter,
        RegistryCall.apply, tombstones, finish_window, Table.only_put_of_ne different]
      rfl
  | close changed => rfl

theorem job_apply_of_ne (registry : Registry) (call : RegistryCall) (other : call.key ≠ key) :
    (call.apply registry).jobs.get? key = registry.jobs.get? key := by
  cases call with
  | tick time changed displayName progress =>
      have different : changed ≠ key := other
      rcases ticked : registry.tick time changed displayName progress with ⟨answer, left⟩
      rw [RegistryCall.apply, ticked]
      rcases registry.tick_cases time changed displayName progress ticked with
        ⟨job, -, -, -, jobs⟩ | ⟨-, -, jobs⟩ | ⟨-, -, jobs⟩
      · rw [jobs, Table.get?_put, if_neg different]
      · rw [jobs]
      · rw [jobs, Table.get?_put, if_neg different]
  | finish time changed =>
      have different : changed ≠ key := other
      rw [RegistryCall.apply, finish_jobs, Table.get?_erase, if_neg different]
  | close changed =>
      have different : changed ≠ key := other
      rw [RegistryCall.apply, close_jobs, Table.get?_erase, if_neg different]

namespace AlikeAt

variable (alike : AlikeAt key latest first second)
include alike

/-- A call on another key that one of the registries gets is not observed. -/
theorem skip (other : call.key ≠ key) (order : ∀ time, call.time? = some time → latest ≤ time) :
    AlikeAt key (call.time?.getD latest) (call.apply first) second where
  window_eq := (window_apply first call).trans alike.window_eq
  job_eq := (job_apply_of_ne first call other).trans alike.job_eq
  buried_eq now later := by
    have reached : ∀ time, call.time? = some time → time ≤ now := by
      intro time read
      rw [read] at later
      exact later
    rw [buried_apply_of_ne first call other reached]
    apply alike.buried_eq
    cases read : call.time? with
    | none =>
        rw [read] at later
        exact later
    | some time => exact Nat.le_trans (order time read) (reached time read)

theorem tombstone_eq (order : latest ≤ now) :
    (first.prune now).tombstones.get? key = (second.prune now).tombstones.get? key := by
  rw [get?_prune, get?_prune, alike.buried_eq now order]

theorem tick_eq (order : latest ≤ now) (displayName : String) (progress : Float) :
    (first.tick now key displayName progress).1 = (second.tick now key displayName progress).1 ∧
      (first.tick now key displayName progress).2.jobs.get? key =
        (second.tick now key displayName progress).2.jobs.get? key := by
  have job_eq := alike.job_eq
  have tombstone_eq := alike.tombstone_eq order
  unfold tick
  simp only [prune_jobs, job_eq, tombstone_eq]
  cases found : second.jobs.get? key with
  | some job =>
      simp only [Table.get?_put, if_true]
      exact ⟨trivial, trivial⟩
  | none =>
      cases (second.prune now).tombstones.get? key with
      | some tombstone => exact ⟨rfl, job_eq⟩
      | none =>
          simp only [Table.get?_put, if_true]
          exact ⟨trivial, trivial⟩

/-- A call on the key itself is answered alike, and the registries stay alike. -/
theorem step (same : call.key = key) (order : ∀ time, call.time? = some time → latest ≤ time) :
    call.answer first = call.answer second ∧
      AlikeAt key (call.time?.getD latest) (call.apply first) (call.apply second) := by
  have window_eq : (call.apply first).window = (call.apply second).window := by
    rw [window_apply, window_apply, alike.window_eq]
  cases call with
  | tick now changed displayName progress =>
      obtain rfl : changed = key := same
      obtain ⟨answer_eq, job_eq⟩ := alike.tick_eq (order now rfl) displayName progress
      refine ⟨congrArg CallAnswer.ticked answer_eq, window_eq, job_eq, fun later after => ?_⟩
      have left (registry : Registry) :
          (registry.tick now changed displayName progress).2.buried later changed =
            registry.buried later changed := by
        rw [← buried_prune registry after changed, buried_eq_filter, buried_eq_filter,
          tick_tombstones, tick_window]
        rfl
      exact (left first).trans ((alike.buried_eq later (Nat.le_trans (order now rfl) after)).trans
        (left second).symm)
  | finish now changed =>
      obtain rfl : changed = key := same
      have answer_eq : (first.finish now changed).1 = (second.finish now changed).1 :=
        congrArg (Option.map _) alike.job_eq
      refine ⟨congrArg CallAnswer.ended answer_eq, window_eq, ?_, fun later after => ?_⟩
      · rw [RegistryCall.apply, RegistryCall.apply, finish_jobs, finish_jobs, Table.get?_erase,
          Table.get?_erase, if_pos rfl, if_pos rfl]
      · have left (registry : Registry) :
            (registry.finish now changed).2.tombstones.only changed =
              (registry.buried now changed).put changed
                ⟨((registry.finish now changed).1.map Job.progress).getD .zero, now⟩ :=
          Table.only_put_self _ _ _
        rw [buried_eq_filter, buried_eq_filter, window_eq, RegistryCall.apply, RegistryCall.apply,
          left, left, answer_eq, alike.buried_eq now (order now rfl)]
  | close changed =>
      obtain rfl : changed = key := same
      refine ⟨congrArg CallAnswer.closed alike.job_eq, window_eq, ?_, alike.buried_eq⟩
      rw [RegistryCall.apply, RegistryCall.apply, close_jobs, close_jobs, Table.get?_erase,
        Table.get?_erase, if_pos rfl, if_pos rfl]

end AlikeAt

/-! ## Runs -/

/-- The calls of a run that are about a key, with their answers. -/
def answersAt (key : JobKey) : Registry → List RegistryCall → List (RegistryCall × CallAnswer)
  | _, [] => []
  | registry, call :: calls =>
      (if call.key = key then [(call, call.answer registry)] else []) ++
        answersAt key (call.apply registry) calls

theorem AlikeAt.run (alike : AlikeAt key latest first second) {calls : List RegistryCall}
    (advances : ClockAdvances calls) (order : ∀ time ∈ times calls, latest ≤ time) :
    answersAt key first calls = answersAt key second (calls.filter (·.key = key)) ∧
      (calls.foldl apply first).jobs.get? key =
        ((calls.filter (·.key = key)).foldl apply second).jobs.get? key := by
  induction calls generalizing latest first second with
  | nil => exact ⟨rfl, alike.job_eq⟩
  | cons call calls inductionHypothesis =>
      have now : ∀ time, call.time? = some time → latest ≤ time :=
        fun time read => order time (mem_times List.mem_cons_self read)
      have rest : ClockAdvances calls := by
        unfold ClockAdvances at advances
        rw [← List.singleton_append, times_append] at advances
        exact (List.pairwise_append.mp advances).2.1
      have later : ∀ time ∈ times calls, call.time?.getD latest ≤ time := by
        intro time member
        cases read : call.time? with
        | none =>
            apply order time
            rw [← List.singleton_append, times_append]
            exact List.mem_append_right _ member
        | some now =>
            unfold ClockAdvances at advances
            rw [← List.singleton_append, times_append] at advances
            exact (List.pairwise_append.mp advances).2.2 now
              (mem_times List.mem_cons_self read) time member
      by_cases same : call.key = key
      · obtain ⟨answer_eq, moved⟩ := alike.step same now
        obtain ⟨answers_eq, job_eq⟩ := inductionHypothesis moved rest later
        rw [List.filter_cons_of_pos (by simpa using same)]
        simp only [answersAt, List.foldl_cons, if_pos same, answer_eq, answers_eq]
        exact ⟨trivial, job_eq⟩
      · obtain ⟨answers_eq, job_eq⟩ := inductionHypothesis (alike.skip same now) rest later
        rw [List.filter_cons_of_neg (by simpa using same)]
        simp only [answersAt, List.foldl_cons, if_neg same, List.nil_append]
        exact ⟨answers_eq, job_eq⟩

end Registry

/-! ## What a run returns about a key -/

/-- What a step returns. -/
inductive StepAnswer
  | dispatched (dispatched : Dispatched)
  | closed (key : JobKey) (job : Option Job)
  | deferred

/-- What the answer of a step says about one key. -/
def StepAnswer.about? (key : JobKey) : StepAnswer → Option CallAnswer
  | dispatched (.progress ticked answer) => if ticked = key then some (.ticked answer) else none
  | dispatched (.result report) =>
      match report.verdict.operation.jobKind? with
      | some kind => if ⟨report.device, kind⟩ = key then some (.ended report.evicted) else none
      | none => none
  | closed ended job => if ended = key then some (.closed job) else none
  | deferred => none

/-- Whether a step concerns a key: a tick for it, the result that ends it, or its closing. -/
def DispatcherStep.concerns (key : JobKey) (step : DispatcherStep) : Bool :=
  step.call?.any fun call => call.key = key

theorem DispatcherStep.calls_filter_concerns (key : JobKey) (steps : List DispatcherStep) :
    calls (steps.filter (concerns key)) = (calls steps).filter fun call => call.key = key := by
  induction steps with
  | nil => rfl
  | cons step steps inductionHypothesis =>
      unfold calls at inductionHypothesis ⊢
      cases made : step.call? with
      | none =>
          have unconcerned : ¬ concerns key step = true := by
            simp [concerns, made]
          rw [List.filter_cons_of_neg unconcerned, inductionHypothesis,
            List.filterMap_cons_none made]
      | some call =>
          rw [List.filterMap_cons_some made, List.filter_cons, List.filter_cons]
          simp only [concerns, made, Option.any_some]
          split
          · rw [List.filterMap_cons_some made]
            exact congrArg (call :: ·) inductionHypothesis
          · exact inductionHypothesis

namespace Dispatcher

open DispatcherStep DeskEvent
open Registry (answersAt)

variable {σ : Type} (desk : Desk σ) (dispatcher : Dispatcher) (host : σ) (key : JobKey)

/-- A step with what it returns. -/
def answerTo (dispatcher : Dispatcher) :
    DispatcherStep → Act DeskEvent σ (StepAnswer × Dispatcher)
  | .signal now sent =>
      (fun handled => (.dispatched handled.1, handled.2)) <$> dispatch desk dispatcher now sent
  | .close key => (fun handled => (.closed key handled.1, handled.2)) <$> dispatcher.close key
  | .defer defers => pure (.deferred, { dispatcher with defersReboots := defers })

theorem perform_eq (step : DispatcherStep) :
    perform desk dispatcher step = Prod.snd <$> answerTo desk dispatcher step := by
  cases step with
  | signal now sent => exact (comp_map ..)
  | close key => exact (comp_map ..)
  | defer defers => rfl

/-- What the steps of a run return about a key. -/
def reports (key : JobKey) : Dispatcher → List DispatcherStep → σ → List CallAnswer
  | _, [], _ => []
  | dispatcher, step :: steps, host =>
      let answered := (answerTo desk dispatcher step host).value
      (answered.1.1.about? key).toList ++ reports key answered.1.2 steps answered.2

theorem dispatched_about? (now : Instant) (sent : Signal) :
    (StepAnswer.dispatched (dispatch desk dispatcher now sent host).value.1.1).about? key =
      (sent.call? now).bind fun call =>
        if call.key = key then some (call.answer dispatcher.registry) else none := by
  unfold dispatch Signal.call?
  cases sent.notification with
  | progress kind value =>
      rw [onTick_value]
      rfl
  | result operation code =>
      obtain ⟨-, -, ended, -⟩ :=
        evict_eq host dispatcher.registry now sent.device operation
      simp only [(onResult_eq desk dispatcher host now sent.device sent.displayName operation
        code).1, StepAnswer.about?]
      cases about : operation.jobKind? with
      | none => simp [judge, Operation.ending?, about]
      | some kind =>
          have made : operation.ending? now sent.device =
              some (.finish now ⟨sent.device, kind⟩) := by
            simp only [Operation.ending?, about, Option.map_some]
          simp only [judge, about, made, Option.bind_some, ended _ made]
          rfl

theorem answerTo_left (step : DispatcherStep) :
    (answerTo desk dispatcher step host).value.1.2.registry =
      step.call?.elim dispatcher.registry (·.apply dispatcher.registry) := by
  cases step with
  | signal now sent =>
      simp only [answerTo, Act.map_apply, dispatch_left]
      rfl
  | close key =>
      simp only [answerTo, Act.map_apply, close_value]
      rfl
  | defer defers => rfl

theorem answerTo_about? (step : DispatcherStep) :
    (answerTo desk dispatcher step host).value.1.1.about? key =
      step.call?.bind fun call =>
        if call.key = key then some (call.answer dispatcher.registry) else none := by
  cases step with
  | signal now sent =>
      simp only [answerTo, Act.map_apply]
      exact dispatched_about? desk dispatcher host key now sent
  | close closed =>
      simp only [answerTo, Act.map_apply, close_value]
      rfl
  | defer defers => rfl

theorem filter_isAbout_plainEvents (now : Instant) (sent : Signal) (registry : Registry) :
    (sent.plainEvents now registry).filter (isAbout key) =
      (sent.call? now).elim [] fun call =>
        if call.key = key then call.indications (call.answer registry) else [] := by
  have shown : ((sent.call? now).elim [] fun call =>
      call.indications (call.answer registry)).filter (isAbout key) =
        (sent.call? now).elim [] fun call =>
          if call.key = key then call.indications (call.answer registry) else [] := by
    cases sent.call? now with
    | none => rfl
    | some call => exact filter_isAbout_indications key call _
  rw [← shown, Signal.plainEvents]
  cases sent.notification with
  | progress kind value =>
      simp only [List.filter_append]
      split <;> rfl
  | result operation code =>
      have restored (events : List DeskEvent) :
          (DeskEvent.cursorRestored :: events).filter (isAbout key) =
            events.filter (isAbout key) := rfl
      simp only [List.cons_append, restored, List.filter_append]
      split <;> exact List.append_nil _

theorem filter_isAbout_answerTo (step : DispatcherStep) :
    (answerTo desk dispatcher step host).events.filter (isAbout key) =
      step.call?.elim [] fun call =>
        if call.key = key then call.indications (call.answer dispatcher.registry) else [] := by
  cases step with
  | signal now sent =>
      simp only [answerTo, Act.map_apply]
      rw [← filter_isAbout_filter_isPlain, filter_isPlain_dispatch, filter_isAbout_plainEvents]
      rfl
  | close closed =>
      have shown : (dispatcher.close closed host).events =
          (RegistryCall.close closed).indications
            ((RegistryCall.close closed).answer dispatcher.registry) := by
        rw [close_events]
        cases found : dispatcher.registry.jobs.get? closed <;>
          simp [answer, Registry.close, found, indications]
      simp only [answerTo, Act.map_apply, shown, filter_isAbout_indications]
      rfl
  | defer defers => rfl

/-- A run is observed at a key as the calls that it makes. -/
theorem observed_eq (steps : List DispatcherStep) :
    let answers := answersAt key dispatcher.registry (calls steps)
    let reached := performAll desk dispatcher steps host
    reports desk key dispatcher steps host = answers.map Prod.snd ∧
      reached.events.filter (isAbout key) =
        answers.flatMap (fun entry => entry.1.indications entry.2) ∧
      reached.value.1.registry = (calls steps).foldl apply dispatcher.registry := by
  induction steps generalizing dispatcher host with
  | nil => exact ⟨rfl, rfl, rfl⟩
  | cons step steps inductionHypothesis =>
      have left := answerTo_left desk dispatcher host step
      have about := answerTo_about? desk dispatcher host key step
      have shown := filter_isAbout_answerTo desk dispatcher host key step
      obtain ⟨reports_eq, events_eq, left_eq⟩ := inductionHypothesis
        (answerTo desk dispatcher step host).value.1.2 (answerTo desk dispatcher step host).value.2
      rw [left] at reports_eq events_eq left_eq
      simp only [reports, performAll, List.foldlM_cons, Act.bind_apply, perform_eq, Act.map_apply,
        List.filter_append]
      rw [performAll] at events_eq left_eq
      rw [about, shown, reports_eq, events_eq, left_eq]
      cases made : step.call? with
      | none =>
          have calls_eq : calls (step :: steps) = calls steps := List.filterMap_cons_none made
          rw [calls_eq]
          exact ⟨rfl, rfl, rfl⟩
      | some call =>
          have calls_eq : calls (step :: steps) = call :: calls steps :=
            List.filterMap_cons_some made
          rw [calls_eq]
          by_cases same : call.key = key
          · simp only [answersAt, Option.bind_some, Option.elim_some, same, if_true,
              List.singleton_append, List.map_cons, List.flatMap_cons]
            exact ⟨rfl, trivial, rfl⟩
          · simp only [answersAt, Option.bind_some, Option.elim_some, same, if_false,
              List.nil_append]
            exact ⟨rfl, trivial, rfl⟩

/-- Two runs in which the same steps concern a key, with the same readings of the clock, return
the same about that key, show the same at its indicator and leave the same job there, whatever
else happens in them and whoever answers. -/
theorem other_keys_unobserved (key : JobKey) (window : Nat) (first second : List DispatcherStep)
    (advances : ClockAdvances (calls first)) (advances' : ClockAdvances (calls second))
    (same : first.filter (concerns key) = second.filter (concerns key))
    {σ τ : Type} (desk : Desk σ) (host : σ) (desk' : Desk τ) (host' : τ) :
    let one := run desk window first host
    let other := run desk' window second host'
    reports desk key (new window) first host = reports desk' key (new window) second host' ∧
      one.events.filter (isAbout key) = other.events.filter (isAbout key) ∧
      one.value.1.registry.job? key = other.value.1.registry.job? key := by
  intro one other
  let alone := (calls first).filter fun call => call.key = key
  have alone_eq : (calls second).filter (fun call => call.key = key) = alone := by
    simp only [alone, ← calls_filter_concerns, same]
  have alike : Registry.AlikeAt key 0 (.empty window) (.empty window) := .refl key 0 _
  -- each of the runs is compared with the calls on the key alone
  obtain ⟨answers_eq, job_eq⟩ := alike.run advances fun time _ => Nat.zero_le time
  obtain ⟨answers_eq', job_eq'⟩ := alike.run advances' fun time _ => Nat.zero_le time
  rw [alone_eq] at answers_eq' job_eq'
  obtain ⟨reports_eq, events_eq, left_eq⟩ := observed_eq desk (new window) host key first
  obtain ⟨reports_eq', events_eq', left_eq'⟩ :=
    observed_eq desk' (new window) host' key second
  have same_answers : answersAt key (.empty window) (calls first) =
      answersAt key (.empty window) (calls second) := answers_eq.trans answers_eq'.symm
  refine ⟨?_, ?_, ?_⟩
  · rw [reports_eq, reports_eq']
    exact congrArg (List.map Prod.snd) same_answers
  · refine events_eq.trans (Eq.trans ?_ events_eq'.symm)
    exact congrArg (List.flatMap fun entry => entry.1.indications entry.2) same_answers
  · have one_eq : one.value.1.registry = (calls first).foldl apply (.empty window) := left_eq
    have other_eq : other.value.1.registry = (calls second).foldl apply (.empty window) := left_eq'
    rw [Registry.job?, Registry.job?, one_eq, other_eq, job_eq, job_eq']

/-- A job that ends and a late tick for it. -/
def endedSteps : List DispatcherStep :=
  [.signal 0 (.encryptProgress "/dev/sda1" "sda1" 40),
    .signal 2 (.encryptDiskResult "/dev/sda1" "sda1" (.ofSmall 0)),
    .signal 4 (.encryptProgress "/dev/sda1" "sda1" 50)]

/-- The same steps among others: a decryption of the same disk, and a result of another disk that
drops old tombstones. -/
def crowdedSteps : List DispatcherStep :=
  [.signal 0 (.encryptProgress "/dev/sda1" "sda1" 40),
    .signal 1 (.decryptProgress "/dev/sda1" "sda1" 90),
    .signal 2 (.encryptDiskResult "/dev/sda1" "sda1" (.ofSmall 0)),
    .signal 3 (.encryptDiskResult "/dev/sdb1" "sdb1" (.ofSmall 0)),
    .close ⟨⟨"/dev/sda1"⟩, .decrypt⟩,
    .signal 4 (.encryptProgress "/dev/sda1" "sda1" 50),
    .signal 9 (.decryptProgress "/dev/sdb1" "sdb1" 1)]

def endedKey : JobKey := ⟨⟨"/dev/sda1"⟩, .encrypt⟩

theorem late_tick_unobserved_crowd :
    let desk : Desk Unit := ⟨fun _ => pure false, pure (.ok ())⟩
    let reached : Percent := (Percent.ofFloat? 40).getD .zero
    ClockAdvances (calls endedSteps) ∧ ClockAdvances (calls crowdedSteps) ∧
      endedSteps.filter (concerns endedKey) = crowdedSteps.filter (concerns endedKey) ∧
      reports desk endedKey (new 3) crowdedSteps () =
        [.ticked ⟨.started, reached⟩, .ended (some ⟨endedKey, "sda1", reached, .terminal⟩),
          .ticked ⟨.stale, reached⟩] ∧
      (run desk 3 crowdedSteps ()).events.filter (isAbout endedKey) =
        [.opened endedKey "Encrypting...sda1(sda1)", .updated endedKey reached,
          .closed endedKey] := by
  intro desk reached
  have advances : ClockAdvances (calls endedSteps) := by decide
  have advances' : ClockAdvances (calls crowdedSteps) := by decide
  have same : endedSteps.filter (concerns endedKey) = crowdedSteps.filter (concerns endedKey) := rfl
  obtain ⟨reports_eq, events_eq, -⟩ := other_keys_unobserved endedKey 3 endedSteps crowdedSteps
    advances advances' same desk () desk ()
  exact ⟨advances, advances', same, reports_eq.symm.trans (by decide), events_eq.symm.trans
    (by decide)⟩

end Dispatcher

end DiskWarden
