import DiskWarden.Proofs.Dispatch.Steps
import DiskWarden.Proofs.Percent.Order
import Mathlib.Data.List.Induction

/-!
# The indicators follow the jobs

For each key, what a run shows is a word of segments: an indicator opens, its values follow, and
it closes, except that the last segment may still be open.  It is open exactly while there is a
job, and the last value shown is the progress of that job.

The steps are told apart by `Passage`, which says what a step does to the job at one key and what
it shows there meanwhile.  `Follows` is the invariant that every passage keeps.
-/

namespace DiskWarden

/-- What is seen of the indicator of one key. -/
inductive Mark
  | opened
  | updated (progress : Percent)
  | closed
deriving DecidableEq

namespace Mark

def ofEvent? (key : JobKey) : DeskEvent → Option Mark
  | .opened shown _ => if shown = key then some .opened else none
  | .updated shown progress => if shown = key then some (.updated progress) else none
  | .closed shown => if shown = key then some .closed else none
  | .noticed .. => none
  | .cursorRestored => none
  | .rebootAsked .. => none
  | .rebootRequested => none

/-- The part of what is seen that is about one key. -/
def ofEvents (key : JobKey) (events : List DeskEvent) : List Mark :=
  events.filterMap (ofEvent? key)

theorem ofEvents_append (key : JobKey) (earlier later : List DeskEvent) :
    ofEvents key (earlier ++ later) = ofEvents key earlier ++ ofEvents key later :=
  List.filterMap_append

/-- Whether an indicator is open after it was seen to change. -/
def leaveOpen (marks : List Mark) : Bool :=
  match marks.getLast? with
  | some .opened => true
  | some (.updated _) => true
  | some .closed => false
  | none => false

end Mark

/-- The values that an indicator shows from its opening on. There is at least one. -/
structure Segment where
  earlier : List Percent
  last : Percent

namespace Segment

def values (segment : Segment) : List Percent := segment.earlier ++ [segment.last]

def marks (segment : Segment) : List Mark := .opened :: segment.values.map .updated

/-- The values are numbers from 0 to 100, and none is less than one before it. -/
structure Sound (segment : Segment) : Prop where
  isNumber : ∀ value ∈ segment.values, value.toFloat.isNaN = false
  inRange : ∀ value ∈ segment.values, (0 : Float) ≤ value.toFloat ∧ value.toFloat ≤ (100 : Float)
  rises : segment.values.Pairwise fun earlier later => earlier.toFloat ≤ later.toFloat

/-- The marks of some closed segments, and of one that may be open at the end. -/
def word (finished : List Segment) (current : Option Segment) : List Mark :=
  finished.flatMap (fun segment => segment.marks ++ [.closed]) ++ current.elim [] marks

theorem Sound.of_rises {segment : Segment}
    (rises : segment.values.Pairwise fun earlier later => earlier.rank ≤ later.rank) :
    segment.Sound where
  isNumber value _ := value.isNaN_toFloat
  inRange value _ := ⟨value.zero_le_toFloat, value.toFloat_le_hundred⟩
  rises := rises.imp Percent.toFloat_le_toFloat_iff.mpr

theorem sound_single (value : Percent) : Sound ⟨[], value⟩ :=
  .of_rises (List.pairwise_singleton _ value)

/-- A value that is no less than the last one can be shown next. -/
theorem Sound.extend {segment : Segment} {value : Percent} (sound : segment.Sound)
    (above : segment.last.rank ≤ value.rank) : Sound ⟨segment.values, value⟩ := by
  have ranks : segment.values.Pairwise fun earlier later => earlier.rank ≤ later.rank :=
    sound.rises.imp Percent.toFloat_le_toFloat_iff.mp
  apply Sound.of_rises
  unfold values at ranks ⊢
  refine List.pairwise_append.mpr ⟨ranks, List.pairwise_singleton _ value, ?_⟩
  intro earlier member later last
  rw [List.mem_singleton.mp last]
  rcases List.mem_append.mp member with before | same
  · have below := (List.pairwise_append.mp ranks).2.2 earlier before segment.last
      List.mem_cons_self
    exact Nat.le_trans below above
  · rw [List.mem_singleton.mp same]
    exact above

theorem word_start (finished : List Segment) (value : Percent) :
    word finished none ++ [.opened, .updated value] = word finished (some ⟨[], value⟩) := by
  simp [word, marks, values]

theorem word_extend (finished : List Segment) (segment : Segment) (value : Percent) :
    word finished (some segment) ++ [.updated value] =
      word finished (some ⟨segment.values, value⟩) := by
  simp [word, marks, values]

theorem word_close (finished : List Segment) (segment : Segment) :
    word finished (some segment) ++ [.closed] = word (finished ++ [segment]) none := by
  simp [word]

theorem leaveOpen_word (finished : List Segment) (current : Option Segment) :
    Mark.leaveOpen (word finished current) = current.isSome := by
  cases current with
  | some segment =>
      have last : (word finished (some segment)).getLast? = some (.updated segment.last) := by
        rw [word, Option.elim_some, marks, values, List.map_append, List.map_singleton,
          ← List.cons_append, ← List.append_assoc]
        exact List.getLast?_concat
      rw [Mark.leaveOpen, last]
      rfl
  | none =>
      rcases List.eq_nil_or_concat finished with rfl | ⟨before, segment, rfl⟩
      · rfl
      · have last : (word (before.concat segment) none).getLast? = some .closed := by
          simp [word]
        rw [Mark.leaveOpen, last]
        rfl

end Segment

/-- What a step does to the job at a key, and what it shows there meanwhile. -/
inductive Passage : Option Job → List Mark → Option Job → Prop
  | stay (job : Option Job) : Passage job [] job
  | start (started : Job) : Passage none [.opened, .updated started.progress] (some started)
  | advance (job advanced : Job) (above : job.progress.rank ≤ advanced.progress.rank) :
      Passage (some job) [.updated advanced.progress] (some advanced)
  | finish (job : Job) : Passage (some job) [.closed] none

/-- What was shown at a key is a word of segments that ends as the job there has it. -/
structure Follows (shown : List Mark) (job : Option Job) (finished : List Segment)
    (current : Option Segment) : Prop where
  shown_eq : shown = Segment.word finished current
  sound : ∀ segment, segment ∈ finished ∨ current = some segment → segment.Sound
  last_eq : current.map Segment.last = job.map Job.progress

theorem Follows.nil : Follows [] none [] none where
  shown_eq := rfl
  sound := by
    rintro segment (member | same)
    · cases member
    · cases same
  last_eq := rfl

theorem Follows.pass {shown marks : List Mark} {job job' : Option Job}
    {finished : List Segment} {current : Option Segment}
    (follows : Follows shown job finished current) (passage : Passage job marks job') :
    ∃ finished' current', Follows (shown ++ marks) job' finished' current' := by
  obtain ⟨rfl, sound, last_eq⟩ := follows
  cases passage with
  | stay =>
      refine ⟨finished, current, ?_, sound, last_eq⟩
      exact List.append_nil _
  | start started =>
      have none : current = none := Option.map_eq_none_iff.mp last_eq
      subst none
      refine ⟨finished, some ⟨[], started.progress⟩, Segment.word_start _ _, ?_, rfl⟩
      rintro segment (member | same)
      · exact sound segment (.inl member)
      · cases same
        exact Segment.sound_single started.progress
  | advance job advanced above =>
      obtain ⟨open', rfl, same⟩ := Option.map_eq_some_iff.mp last_eq
      refine ⟨finished, some ⟨open'.values, advanced.progress⟩, Segment.word_extend _ _ _,
        ?_, rfl⟩
      rintro segment (member | equal)
      · exact sound segment (.inl member)
      · cases equal
        exact (sound open' (.inr rfl)).extend (same ▸ above)
  | finish job =>
      obtain ⟨open', rfl, -⟩ := Option.map_eq_some_iff.mp last_eq
      refine ⟨finished ++ [open'], none, Segment.word_close _ _, ?_, rfl⟩
      rintro segment (member | equal)
      · rcases List.mem_append.mp member with old | new
        · exact sound segment (.inl old)
        · rw [List.mem_singleton.mp new]
          exact sound open' (.inr rfl)
      · cases equal

namespace Dispatcher

open Mark

variable {σ : Type} (desk : Desk σ) (dispatcher : Dispatcher) (host : σ) (key : JobKey)

/-! ## Each step is a passage at every key -/

theorem passage_onTick (now : Instant) (device : Device) (displayName : String)
    (kind : JobKind) (progress : Float) :
    let ticked := dispatcher.onTick now device displayName kind progress host
    Passage (dispatcher.registry.jobs.get? key) (ofEvents key ticked.events)
      (ticked.value.1.2.registry.jobs.get? key) := by
  simp only [onTick_value, onTick_events]
  rcases ticked : dispatcher.registry.tick now ⟨device, kind⟩ displayName progress with
    ⟨tick, left⟩
  by_cases same : (⟨device, kind⟩ : JobKey) = key
  · subst same
    rcases dispatcher.registry.tick_cases now ⟨device, kind⟩ displayName progress ticked with
      ⟨job, found, effect, above, jobs⟩ | ⟨-, effect, jobs⟩ | ⟨found, effect, jobs⟩
    · simp only [effect, jobs, found, Table.get?_put, if_true, ofEvents, ofEvent?,
        List.filterMap_cons, List.filterMap_nil]
      exact .advance job { job with progress := tick.progress } above
    · simp only [effect, jobs]
      exact .stay _
    · simp only [effect, jobs, found, Table.get?_put, if_true, ofEvents, ofEvent?,
        List.filterMap_cons, List.filterMap_nil]
      exact .start ⟨⟨device, kind⟩, displayName, tick.progress, .active⟩
  · rcases dispatcher.registry.tick_cases now ⟨device, kind⟩ displayName progress ticked with
      ⟨job, -, effect, -, jobs⟩ | ⟨-, effect, jobs⟩ | ⟨-, effect, jobs⟩
    · simp only [effect, jobs, Table.get?_put, same, if_false, ofEvents, ofEvent?,
        List.filterMap_cons, List.filterMap_nil]
      exact .stay _
    · simp only [effect, jobs]
      exact .stay _
    · simp only [effect, jobs, Table.get?_put, same, if_false, ofEvents, ofEvent?,
        List.filterMap_cons, List.filterMap_nil]
      exact .stay _

/-- Closing the indicator of a job, if there is one, and dropping the job. -/
theorem passage_erase (jobs : Table JobKey Job) (ended : JobKey) :
    Passage (jobs.get? key)
      (ofEvents key (if (jobs.get? ended).isSome then [.closed ended] else []))
      ((jobs.erase ended).get? key) := by
  rw [Table.get?_erase]
  by_cases same : ended = key
  · subst same
    cases found : jobs.get? ended with
    | some job =>
        simp only [Option.isSome_some, if_true, ofEvents, ofEvent?, List.filterMap_cons,
          List.filterMap_nil]
        exact .finish job
    | none =>
        simp only [if_true]
        exact .stay none
  · rw [if_neg same]
    cases (jobs.get? ended).isSome with
    | true =>
        simp only [if_true, ofEvents, ofEvent?, same, if_false, List.filterMap_cons,
          List.filterMap_nil]
        exact .stay _
    | false => exact .stay _

theorem passage_evict (registry : Registry) (now : Instant) (device : Device)
    (operation : Operation) :
    let evicted := evict registry now device operation host
    Passage (registry.jobs.get? key) (ofEvents key evicted.events)
      (evicted.value.1.2.jobs.get? key) := by
  cases about : operation.jobKind? with
  | some kind =>
      obtain ⟨value, events⟩ := evict_of_jobKind host now device operation registry about
      simp only [value, events]
      exact passage_erase key registry.jobs ⟨device, kind⟩
  | none =>
      simp only [evict_of_none host now device operation registry about]
      exact .stay _

/-! ## Telling the user shows nothing at any indicator -/

/-- Whatever it meets, an action shows nothing at the indicator of a key. -/
def Quiet {α : Type} (action : Act DeskEvent σ α) : Prop :=
  ∀ host, ofEvents key (action host).events = []

namespace Quiet

variable {α β : Type} {key}

theorem pure (value : α) : Quiet key (pure value : Act DeskEvent σ α) :=
  fun _ => rfl

theorem record (level : LogLevel) (text : String) :
    Quiet key (Act.record level text : Act DeskEvent σ Unit) :=
  fun _ => rfl

theorem consult (asked : Consult σ α) : Quiet key (Act.consult asked : Act DeskEvent σ α) :=
  fun _ => rfl

theorem emit {event : DeskEvent} (apart : ofEvent? key event = none) :
    Quiet key (Act.emit event : Act DeskEvent σ Unit) := by
  intro host
  simp [ofEvents, apart]

theorem bind {action : Act DeskEvent σ α} {next : α → Act DeskEvent σ β}
    (quiet : Quiet key action) (quietNext : ∀ value, Quiet key (next value)) :
    Quiet key (action >>= next) := by
  intro host
  rw [Act.bind_apply, ofEvents_append, quiet host, quietNext _ _]
  rfl

end Quiet

theorem quiet_offerReboot (decision : Decision) : Quiet key (desk.offerReboot decision) := by
  unfold Desk.offerReboot
  refine .bind (.emit rfl) fun _ => .bind (.consult _) fun confirmed => ?_
  split
  · refine .bind (.record _ _) fun _ => .bind (.emit rfl) fun _ => ?_
    refine .bind (.consult _) fun reply => ?_
    cases reply with
    | ok => exact .pure _
    | error fault => exact .bind (.record _ _) fun _ => .pure _
  · exact .pure _

theorem quiet_present (decision : Decision) : Quiet key (desk.present decision) := by
  unfold Desk.present
  split
  · exact quiet_offerReboot desk key decision
  · exact .bind (.emit rfl) fun _ => .pure _

theorem ofEvents_onResult (now : Instant) (device : Device) (displayName : String)
    (operation : Operation) (code : Code) :
    ofEvents key (onResult desk dispatcher now device displayName operation code host).events =
      ofEvents key (evict dispatcher.registry now device operation host).events := by
  have restored (events : List DeskEvent) :
      ofEvents key (.cursorRestored :: events) = ofEvents key events := rfl
  have told := quiet_present desk key
    ((judge operation code).decision (device.label displayName))
  simp only [onResult, Act.bind_apply, Act.ite_apply, Act.emit_apply, Act.record_apply,
    Act.pure_apply]
  split
  · simp [restored]
  · simp [restored, ofEvents_append, told _]

/-! ## Runs -/

theorem passage_perform (step : DispatcherStep) :
    let performed := perform desk dispatcher step host
    Passage (dispatcher.registry.jobs.get? key) (ofEvents key performed.events)
      (performed.value.1.registry.jobs.get? key) := by
  cases step with
  | signal now signal =>
      simp only [perform, Act.map_apply, dispatch]
      cases signal.notification with
      | progress kind value =>
          exact passage_onTick dispatcher host key now signal.device signal.displayName kind value
      | result operation code =>
          obtain ⟨report, value⟩ := onResult_value desk dispatcher host now signal.device
            signal.displayName operation code
          simp only [value, ofEvents_onResult]
          exact passage_evict host key dispatcher.registry now signal.device operation
  | close closed =>
      simp only [perform, Act.map_apply, close_value, close_events]
      exact passage_erase key dispatcher.registry.jobs closed
  | defer defers => exact .stay _

theorem follows_run (window : Nat) (steps : List DispatcherStep) :
    let reached := run desk window steps host
    ∃ finished current, Follows (ofEvents key reached.events)
      (reached.value.1.registry.jobs.get? key) finished current := by
  induction steps using List.reverseRecOn with
  | nil => exact ⟨[], none, Follows.nil⟩
  | append_singleton steps step inductionHypothesis =>
      obtain ⟨finished, current, follows⟩ := inductionHypothesis
      simp only [run_concat, Act.bind_apply, ofEvents_append]
      exact follows.pass (passage_perform desk _ _ key step)

/-- A late tick shows nothing and leaves every job as it was. -/
theorem dispatch_of_stale {now : Instant} {signal : Signal} {tick : Tick}
    (late : (dispatch desk dispatcher now signal host).value.1.1 = .progress key tick)
    (stale : tick.effect = .stale) :
    (dispatch desk dispatcher now signal host).events = [] ∧
      (dispatch desk dispatcher now signal host).value.1.2.registry.jobs =
        dispatcher.registry.jobs := by
  unfold dispatch at late ⊢
  cases notified : signal.notification with
  | progress kind value =>
      simp only [notified, onTick_value, onTick_events] at late ⊢
      rcases ticked : dispatcher.registry.tick now ⟨signal.device, kind⟩ signal.displayName value
        with ⟨answer, left⟩
      rw [ticked] at late
      cases late
      rcases dispatcher.registry.tick_cases now _ signal.displayName value ticked with
        ⟨job, -, effect, -, -⟩ | ⟨-, effect, jobs⟩ | ⟨-, effect, -⟩
      · rw [effect] at stale
        cases stale
      · simp only [effect]
        exact ⟨trivial, jobs⟩
      · rw [effect] at stale
        cases stale
  | result operation code =>
      obtain ⟨report, value⟩ := onResult_value desk dispatcher host now signal.device
        signal.displayName operation code
      simp only [notified, value] at late
      cases late

theorem close_of_none (untracked : dispatcher.registry.jobs.get? key = none) :
    (dispatcher.close key host).events = [] ∧
      (dispatcher.close key host).value.1.2.registry.jobs = dispatcher.registry.jobs := by
  rw [close_events, close_value, untracked]
  exact ⟨rfl, Table.erase_eq_self untracked⟩

/-- The indicators of a run, for each key, and the calls that show nothing. -/
theorem indicators_follow_jobs (window : Nat) (steps : List DispatcherStep) :
    let reached := run desk window steps host
    (∀ key,
      (∃ finished current,
        ofEvents key reached.events = Segment.word finished current ∧
        ∀ segment, segment ∈ finished ∨ current = some segment → segment.Sound) ∧
      (leaveOpen (ofEvents key reached.events) = true ↔
        (reached.value.1.registry.job? key).isSome)) ∧
    (∀ now signal key tick,
      let late := dispatch desk reached.value.1 now signal reached.value.2
      late.value.1.1 = .progress key tick → tick.effect = .stale →
        late.events = [] ∧ late.value.1.2.registry.jobs = reached.value.1.registry.jobs) ∧
    (∀ key, reached.value.1.registry.job? key = none →
      let closed := close reached.value.1 key reached.value.2
      closed.events = [] ∧ closed.value.1.2.registry.jobs = reached.value.1.registry.jobs) := by
  refine ⟨fun key => ?_, ?_, ?_⟩
  · obtain ⟨finished, current, follows⟩ := follows_run desk host key window steps
    refine ⟨⟨finished, current, follows.shown_eq, follows.sound⟩, ?_⟩
    have same : current.isSome =
        ((run desk window steps host).value.1.registry.jobs.get? key).isSome := by
      rw [← Option.isSome_map (f := Segment.last), follows.last_eq, Option.isSome_map]
    rw [follows.shown_eq, Segment.leaveOpen_word, same]
    rfl
  · intro now signal key tick
    exact dispatch_of_stale desk _ _ key
  · intro key
    exact close_of_none _ _ key

def refusingDesk : Desk Unit := ⟨fun _ => pure false, pure (.ok ())⟩

def failingKey : JobKey := ⟨⟨"/dev/sda1"⟩, .encrypt⟩

/-- A job that starts and fails. -/
def failingSteps : List DispatcherStep :=
  [.signal 0 (.encryptProgress "/dev/sda1" "sda1" 40),
    .signal 1 (.encryptDiskResult "/dev/sda1" "sda1" (.ofSmall 9))]

theorem late_tick_after_failure :
    let reached := run refusingDesk 3 failingSteps ()
    let late := dispatch refusingDesk reached.value.1 2 (.encryptProgress "/dev/sda1" "sda1" 50) ()
    leaveOpen (ofEvents failingKey reached.events) = false ∧ late.events = [] ∧
      late.value.1.2.registry.jobs = reached.value.1.registry.jobs := by
  obtain ⟨indicators, ticks, -⟩ := indicators_follow_jobs refusingDesk () 3 failingSteps
  have noJob : ¬ ((run refusingDesk 3 failingSteps ()).value.1.registry.job?
      failingKey).isSome = true := by decide
  have closed := mt (indicators failingKey).2.mp noJob
  exact ⟨Bool.eq_false_of_not_eq_true closed,
    ticks 2 _ failingKey ⟨.stale, (Percent.ofFloat? 40).getD .zero⟩ (by decide) rfl⟩

end Dispatcher

end DiskWarden
