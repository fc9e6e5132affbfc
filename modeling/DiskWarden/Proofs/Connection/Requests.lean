import DiskWarden.Proofs.Bus.Turns
import DiskWarden.Proofs.Connection.Account
import Mathlib.Data.List.Nodup
import Mathlib.Data.List.Perm.Basic

/-!
# The requests of a connection

Each password request that is read gets a ticket, in the order of the lines.  After every order of
moves it is in one place: still with its task, in the queue of the loop, with a worker, or
answered.  The writer goes through the tickets in their order, up to the first request that died.
-/

namespace DiskWarden

/-! ## Requests and their tickets -/

namespace WireLine

/-- The device that a line asks a password for. -/
def request? (line : Text.Octets) : Option Device :=
  match read line with
  | .inbound (.passwordRequest device) => some device
  | _ => none

def requests (lines : List Text.Octets) : List Device := lines.filterMap request?

theorem requests_append (earlier later : List Text.Octets) :
    requests (earlier ++ later) = requests earlier ++ requests later :=
  List.filterMap_append

end WireLine

/-- Devices with tickets from a first one on. -/
def numbered (first : Ticket) : List Device → List (Ticket × Device)
  | [] => []
  | device :: devices => (first, device) :: numbered (first + 1) devices

theorem numbered_concat (first : Ticket) (devices : List Device) (device : Device) :
    numbered first (devices ++ [device]) =
      numbered first devices ++ [(first + devices.length, device)] := by
  induction devices generalizing first with
  | nil => rfl
  | cons head rest inductionHypothesis =>
      simp only [List.cons_append, numbered, inductionHypothesis, List.length_cons]
      rw [Nat.add_assoc, Nat.add_comm 1]

theorem mem_numbered_iff {first ticket : Nat} {devices : List Device} {device : Device} :
    (ticket, device) ∈ numbered first devices ↔
      ∃ place, ticket = first + place ∧ devices[place]? = some device := by
  induction devices generalizing first with
  | nil => simp [numbered]
  | cons head rest inductionHypothesis =>
      rw [numbered, List.mem_cons, inductionHypothesis, Prod.mk.injEq]
      constructor
      · rintro (⟨rfl, rfl⟩ | ⟨place, rfl, found⟩)
        · exact ⟨0, rfl, rfl⟩
        · exact ⟨place + 1, by omega, found⟩
      · rintro ⟨place, rfl, found⟩
        cases place with
        | zero => exact .inl ⟨rfl, (Option.some.inj found).symm⟩
        | succ place => exact .inr ⟨place, by omega, found⟩

theorem map_fst_numbered (first : Nat) (devices : List Device) :
    (numbered first devices).map Prod.fst = List.range' first devices.length := by
  induction devices generalizing first with
  | nil => rfl
  | cons head rest inductionHypothesis =>
      rw [numbered, List.map_cons, inductionHypothesis, List.length_cons, List.range'_succ]

def Command.request? : Command → Option (Ticket × Device)
  | .password ticket device => some (ticket, device)
  | .signal _ => none
  | .jobs _ => none
  | .shutdown => none

def Errand.request? : Errand → Option (Ticket × Device)
  | .password ticket device => some (ticket, device)
  | .reboot .. => none

theorem filterMap_request?_errandOf (dispatched : Dispatched) :
    (Bus.errandOf dispatched).filterMap Errand.request? = [] := by
  unfold Bus.errandOf
  split
  · rfl
  · split <;> rfl

/-- No request with a ticket from `firstTicket` on has come before the loop. -/
structure Bus.Fresh (bus : Bus) (firstTicket : Ticket) : Prop where
  queue : ∀ request ∈ bus.queue.filterMap Command.request?, request.1 < firstTicket
  errands : ∀ request ∈ bus.errands.filterMap Errand.request?, request.1 < firstTicket
  replies : ∀ ticket, firstTicket ≤ ticket → bus.replies.get? ticket = none

theorem Bus.fresh_start (dispatcher : Dispatcher) (firstTicket : Ticket) :
    (Bus.start dispatcher).Fresh firstTicket :=
  ⟨fun _ member => absurd member List.not_mem_nil, fun _ member => absurd member List.not_mem_nil,
    fun _ _ => rfl⟩

namespace Connection

variable {σ : Type} {hosts : Hosts σ} {firstTicket : Ticket} {lines read : List Text.Octets}
  {given : List ((Ticket × Device) × Option Reply)} {reached : Connection}

/-- The requests that are still to be answered. -/
def pending (connection : Connection) : List (Ticket × Device) :=
  connection.unasked ++ connection.bus.queue.filterMap Command.request? ++
    connection.bus.errands.filterMap Errand.request?

/-- The peer takes what it is given. -/
def Move.Delivers (move : Move) : Prop := ∀ reason, move ≠ .write (some reason)

/-! ## The answers of a run -/

/-- The answer that a move brings in: a worker asks for the password of the device that the
request is about, and may die over it. -/
def answered (hosts : Hosts σ) (connection : Connection) (host : σ) :
    Move → List ((Ticket × Device) × Option Reply)
  | .work place =>
      match connection.bus.errands[place]? with
      | some (.password ticket device) => [((ticket, device), (hosts.hook device host).value.1)]
      | _ => []
  | _ => []

/-- The answers that the workers bring in on a run, in the order in which they finish. -/
def answers (hosts : Hosts σ) (connection : Connection) :
    List Move → σ → List ((Ticket × Device) × Option Reply)
  | [], _ => []
  | move :: moves, host =>
      let left := (connection.move hosts move host).value
      connection.answered hosts host move ++ left.1.answers hosts moves left.2

/-! ## Every request is in one place -/

/-- What a request that died is called. -/
def died : Fault := .bus "password hook dropped its reply"

/-- The requests of the lines read so far: which are to be answered and which are answered, what
the replies of the loop say, and how far the writer has come. -/
structure Docket (firstTicket : Ticket) (lines read : List Text.Octets)
    (given : List ((Ticket × Device) × Option Reply)) (reached : Connection) : Prop where
  serving : reached.bus.Serving
  lines_eq : lines = read ++ reached.unread
  refused_eq : reached.refused = []
  next_eq : reached.nextTicket = firstTicket + (WireLine.requests read).length
  placed : ((reached.pending ++ given.map Prod.fst).filter (firstTicket ≤ ·.1)).Perm
    (numbered firstTicket (WireLine.requests read))
  replies_iff : ∀ ticket, firstTicket ≤ ticket → ∀ answer,
    reached.bus.replies.get? ticket = some answer ↔ ∃ device, ((ticket, device), answer) ∈ given
  written : ∀ (place : Nat) reply, reached.replies[place]? = some reply →
    ∃ device, ((firstTicket + place, device), some reply) ∈ given
  working : reached.fault = none →
    reached.awaited.length + reached.replies.length = (WireLine.requests read).length ∧
      reached.awaited = List.range' (firstTicket + reached.replies.length) reached.awaited.length
  failed : ∀ reason, reached.fault = some reason → reason = died.chain ∧
    ∃ device, ((firstTicket + reached.replies.length, device), none) ∈ given

theorem docket_start {bus : Bus} (serving : bus.Serving) (fresh : bus.Fresh firstTicket)
    (input : Text.Octets) :
    Docket firstTicket (Text.lines input) [] [] (start bus firstTicket input) where
  serving := serving
  lines_eq := rfl
  refused_eq := rfl
  next_eq := rfl
  placed := by
    have older : (start bus firstTicket input).pending.filter (fun request =>
        firstTicket ≤ request.1) = [] := by
      rw [pending, List.filter_eq_nil_iff]
      intro request member
      have before : request.1 < firstTicket := by
        rcases List.mem_append.mp member with queued | errand
        · exact fresh.queue request queued
        · exact fresh.errands request errand
      simpa using before
    rw [List.map_nil, List.append_nil, older]
    exact List.Perm.refl _
  replies_iff ticket late answer := by
    have none : (start bus firstTicket input).bus.replies.get? ticket = none :=
      fresh.replies ticket late
    simp [none]
  written place reply found := by simp [start] at found
  working _ := ⟨rfl, rfl⟩
  failed _ impossible := nomatch impossible

namespace Docket

/-- What is still to be answered has no answer. -/
theorem unanswered (docket : Docket firstTicket lines read given reached) {ticket : Nat}
    {device : Device} (member : (ticket, device) ∈ reached.pending) (late : firstTicket ≤ ticket)
    (other : Device) (answer : Option Reply) : ((ticket, other), answer) ∉ given := by
  have once : (((reached.pending ++ given.map Prod.fst).filter (firstTicket ≤ ·.1)).map
      Prod.fst).Nodup := by
    rw [(docket.placed.map Prod.fst).nodup_iff, map_fst_numbered]
    exact List.nodup_range'
  rw [List.filter_append, List.map_append, List.nodup_append] at once
  intro answered
  refine once.2.2 ticket ?_ ticket ?_ rfl
  · exact List.mem_map.mpr ⟨_, List.mem_filter.mpr ⟨member, decide_eq_true late⟩, rfl⟩
  · refine List.mem_map.mpr ⟨(ticket, other), List.mem_filter.mpr ⟨?_, decide_eq_true late⟩, rfl⟩
    exact List.mem_map_of_mem answered

/-- An answer is given to the request that has its ticket. -/
theorem asked (docket : Docket firstTicket lines read given reached) {place : Nat}
    {device : Device} {answer : Option Reply}
    (member : ((firstTicket + place, device), answer) ∈ given) :
    (WireLine.requests read)[place]? = some device := by
  have placed : (firstTicket + place, device) ∈
      numbered firstTicket (WireLine.requests read) := by
    refine docket.placed.subset (List.mem_filter.mpr ⟨?_, ?_⟩)
    · exact List.mem_append_right _ (List.mem_map_of_mem member)
    · exact decide_eq_true (Nat.le_add_right firstTicket place)
  obtain ⟨other, same, found⟩ := mem_numbered_iff.mp placed
  rw [Nat.add_left_cancel same]
  exact found

/-! ## Moves -/

/-- A line that asks for nothing is read. -/
theorem pass (docket : Docket firstTicket lines read given reached) {line : Text.Octets}
    {unread : List Text.Octets} (next : reached.unread = line :: unread)
    (other : WireLine.request? line = none) :
    Docket firstTicket lines (read ++ [line]) given { reached with unread } := by
  obtain ⟨serving, lines_eq, refused_eq, next_eq, placed, replies_iff, written, working, failed⟩ :=
    docket
  have same : WireLine.requests (read ++ [line]) = WireLine.requests read := by
    rw [WireLine.requests_append, WireLine.requests, WireLine.requests, List.filterMap_cons, other]
    exact List.append_nil _
  have split : lines = read ++ [line] ++ unread := by
    rw [lines_eq, next, List.append_assoc, List.singleton_append]
  rw [← same] at next_eq placed working
  exact ⟨serving, split, refused_eq, next_eq, placed, replies_iff, written, working, failed⟩

/-- A command that asks for no password goes to the loop. -/
theorem send (docket : Docket firstTicket lines read given reached) (signal : Signal) :
    Docket firstTicket lines read given
      { reached with
        bus := { reached.bus with queue := reached.bus.queue ++ [.signal signal] } } := by
  obtain ⟨serving, lines_eq, refused_eq, next_eq, placed, replies_iff, written, working, failed⟩ :=
    docket
  refine ⟨serving.append Command.noConfusion, lines_eq, refused_eq, next_eq, ?_, replies_iff,
    written, working, failed⟩
  have same : (reached.bus.queue ++ [Command.signal signal]).filterMap Command.request? =
      reached.bus.queue.filterMap Command.request? := by
    rw [List.filterMap_append]
    exact List.append_nil _
  rw [pending, same]
  exact placed

/-- A new request gets the next ticket, and is with its task. -/
theorem placed_concat (docket : Docket firstTicket lines read given reached) (device : Device) :
    (((reached.unasked ++ [(reached.nextTicket, device)] ++
      reached.bus.queue.filterMap Command.request? ++
      reached.bus.errands.filterMap Errand.request?) ++ given.map Prod.fst).filter
        (firstTicket ≤ ·.1)).Perm
      (numbered firstTicket (WireLine.requests read ++ [device])) := by
  have moved : ((reached.unasked ++ [(reached.nextTicket, device)] ++
      reached.bus.queue.filterMap Command.request? ++
      reached.bus.errands.filterMap Errand.request?) ++ given.map Prod.fst).Perm
        ((reached.pending ++ given.map Prod.fst) ++ [(reached.nextTicket, device)]) := by
    refine List.perm_iff_count.mpr fun request => ?_
    simp only [pending, List.count_append]
    omega
  have late : decide (firstTicket ≤ reached.nextTicket) = true := by
    rw [docket.next_eq]
    exact decide_eq_true (Nat.le_add_right firstTicket _)
  refine (moved.filter _).trans ?_
  rw [List.filter_append, List.filter_singleton, late, numbered_concat, ← docket.next_eq]
  exact docket.placed.append_right _

theorem request (docket : Docket firstTicket lines read given reached) {line : Text.Octets}
    {unread : List Text.Octets} {device : Device} (next : reached.unread = line :: unread)
    (holds : WireLine.request? line = some device) :
    Docket firstTicket lines (read ++ [line]) given
      (Connection.request { reached with unread } device) := by
  have placed' := docket.placed_concat device
  obtain ⟨serving, lines_eq, refused_eq, next_eq, placed, replies_iff, written, working, failed⟩ :=
    docket
  have requests_eq :
      WireLine.requests (read ++ [line]) = WireLine.requests read ++ [device] := by
    rw [WireLine.requests_append, WireLine.requests, WireLine.requests, List.filterMap_cons, holds]
    rfl
  have split : lines = read ++ [line] ++ unread := by
    rw [lines_eq, next, List.append_assoc, List.singleton_append]
  have next_eq' :
      reached.nextTicket + 1 = firstTicket + (WireLine.requests (read ++ [line])).length := by
    rw [requests_eq, List.length_append, next_eq]
    rfl
  rw [← requests_eq] at placed'
  simp only [Connection.request]
  split
  · next stopped =>
      refine ⟨serving, split, refused_eq, next_eq', placed', replies_iff, written, ?_, failed⟩
      intro writing
      rw [writing] at stopped
      cases stopped
  · refine ⟨serving, split, refused_eq, next_eq', placed', replies_iff, written, ?_, failed⟩
    intro writing
    obtain ⟨length_eq, awaited_eq⟩ := working writing
    have place : reached.nextTicket =
        firstTicket + reached.replies.length + 1 * reached.awaited.length := by
      rw [next_eq, ← length_eq, Nat.one_mul, Nat.add_comm reached.awaited.length, Nat.add_assoc]
    rw [requests_eq, List.length_append, List.length_append, ← length_eq]
    refine ⟨Nat.add_right_comm _ _ _, ?_⟩
    rw [List.length_singleton, List.range'_concat, ← awaited_eq, ← place]

theorem advance (docket : Docket firstTicket lines read given reached) (host : σ) :
    ∃ read', Docket firstTicket lines read' given (reached.read host).value.1 := by
  rcases read_cases (σ := σ) reached with
    ⟨-, -, same⟩ | ⟨line, unread, -, next, same⟩ | ⟨-, same⟩
  · obtain ⟨serving, lines_eq, refused_eq, next_eq, placed, replies_iff, written, working,
      failed⟩ := docket
    rw [same]
    exact ⟨read, serving, lines_eq, refused_eq, next_eq, placed, replies_iff, written, working,
      failed⟩
  · rw [same]
    refine ⟨read ++ [line], ?_⟩
    unfold readLine
    cases holds : WireLine.read line with
    | blank => exact docket.pass next (by simp [WireLine.request?, holds])
    | malformed cause => exact docket.pass next (by simp [WireLine.request?, holds])
    | broken =>
        obtain ⟨serving, lines_eq, refused_eq, next_eq, placed, replies_iff, written, working,
          failed⟩ := docket.pass next (by simp [WireLine.request?, holds])
        exact ⟨serving, lines_eq, refused_eq, next_eq, placed, replies_iff, written, working,
          failed⟩
    | inbound arrived =>
        cases arrived with
        | passwordRequest device =>
            exact docket.request next (by simp [WireLine.request?, holds])
        | signal signal =>
            have sent := docket.serving.send_eq (.signal signal)
            simp only [receive, Bus.publish, sent]
            exact (docket.pass next (by simp [WireLine.request?, holds])).send signal
  · rw [same]
    exact ⟨read, docket⟩

/-- Wherever a request goes, it stays among those to be answered. -/
theorem placed_of_perm (docket : Docket firstTicket lines read given reached)
    (now : List (Ticket × Device)) (same : now.Perm reached.pending) :
    ((now ++ given.map Prod.fst).filter (firstTicket ≤ ·.1)).Perm
      (numbered firstTicket (WireLine.requests read)) :=
  ((same.append_right _).filter _).trans docket.placed

theorem ask (docket : Docket firstTicket lines read given reached) (place : Nat) :
    Docket firstTicket lines read given (reached.ask place) := by
  unfold Connection.ask
  split
  · exact docket
  · next ticket device found =>
      have taken : (reached.unasked.eraseIdx place ++ [(ticket, device)]).Perm reached.unasked :=
        (List.perm_append_singleton _ _).trans (Bus.cons_eraseIdx_perm found)
      have moved : (reached.unasked.eraseIdx place ++
          (reached.bus.queue ++ [Command.password ticket device]).filterMap Command.request? ++
          reached.bus.errands.filterMap Errand.request?).Perm reached.pending := by
        refine List.perm_iff_count.mpr fun request => ?_
        have count_eq := taken.count_eq request
        simp only [pending, List.filterMap_append, List.count_append] at count_eq ⊢
        simp only [List.filterMap_cons, Command.request?, List.filterMap_nil]
        omega
      have placed := docket.placed_of_perm _ moved
      obtain ⟨serving, lines_eq, refused_eq, next_eq, -, replies_iff, written, working, failed⟩ :=
        docket
      simp only [serving.send_eq]
      exact ⟨serving.append Command.noConfusion, lines_eq, refused_eq, next_eq, placed,
        replies_iff, written, working, failed⟩

theorem turn (docket : Docket firstTicket lines read given reached) (hosts : Hosts σ)
    (now : Instant) (host : σ) :
    Docket firstTicket lines read given
      { reached with bus := (reached.bus.turn hosts now host).value.1 } := by
  have turned := docket.serving.turned hosts now host
  obtain ⟨left, shown, step, same⟩ := Bus.exists_turnStep hosts now docket.serving.defers
  rw [(same host).1] at turned ⊢
  have moved : ({ reached with bus := left } : Connection).pending.Perm reached.pending := by
    cases step with
    | rest => exact List.Perm.refl _
    | signal sent queue dispatched _ _ _ waits =>
        simp only [pending, waits, List.filterMap_append, filterMap_request?_errandOf,
          List.append_nil]
        exact List.Perm.refl _
    | password ticket device queue _ waits =>
        refine List.perm_iff_count.mpr fun request => ?_
        simp only [pending, waits, List.filterMap_append, List.filterMap_cons, List.filterMap_nil,
          Command.request?, Errand.request?, List.count_append, List.count_cons, List.count_nil]
        omega
    | jobs ticket queue _ waits =>
        simp only [pending, waits]
        exact List.Perm.refl _
    | shutdown queue _ waits =>
        exact absurd (waits ▸ List.mem_cons_self) docket.serving.staying
  have placed := docket.placed_of_perm _ moved
  obtain ⟨-, lines_eq, refused_eq, next_eq, -, replies_iff, written, working, failed⟩ := docket
  rw [← turned.replies_eq] at replies_iff
  exact ⟨turned.serving, lines_eq, refused_eq, next_eq, placed, replies_iff, written, working,
    failed⟩

/-- Where an answer is put, it is found, and nothing else is found elsewhere. -/
theorem replies_put_iff (docket : Docket firstTicket lines read given reached) {ticket : Ticket}
    {device : Device} (first : (ticket, device) ∈ reached.pending) (reply : Option Reply)
    {other : Ticket} (late : firstTicket ≤ other) (answer : Option Reply) :
    (reached.bus.replies.put ticket reply).get? other = some answer ↔
      ∃ device', ((other, device'), answer) ∈ given ++ [((ticket, device), reply)] := by
  rw [Table.get?_put]
  split
  · next same =>
      subst same
      constructor
      · rintro ⟨⟩
        exact ⟨device, List.mem_append_right _ List.mem_cons_self⟩
      · rintro ⟨device', member⟩
        rcases List.mem_append.mp member with earlier | new
        · exact absurd earlier (docket.unanswered first late device' answer)
        · cases List.mem_singleton.mp new
          rfl
  · next different =>
      rw [docket.replies_iff other late]
      constructor
      · rintro ⟨device', member⟩
        exact ⟨device', List.mem_append_left _ member⟩
      · rintro ⟨device', member⟩
        rcases List.mem_append.mp member with earlier | new
        · exact ⟨device', earlier⟩
        · cases List.mem_singleton.mp new
          exact absurd rfl different

/-- A worker gives its answer. -/
theorem answer (docket : Docket firstTicket lines read given reached) {place : Nat}
    {ticket : Ticket} {device : Device}
    (found : reached.bus.errands[place]? = some (.password ticket device))
    (reply : Option Reply) :
    Docket firstTicket lines read (given ++ [((ticket, device), reply)])
      { reached with
        bus := { reached.bus with
          errands := reached.bus.errands.eraseIdx place
          replies := reached.bus.replies.put ticket reply } } := by
  have taken := (Bus.cons_eraseIdx_perm found).filterMap Errand.request?
  have first : (ticket, device) ∈ reached.pending :=
    List.mem_append_right _ (taken.subset List.mem_cons_self)
  have moved : ((reached.unasked ++ reached.bus.queue.filterMap Command.request? ++
      (reached.bus.errands.eraseIdx place).filterMap Errand.request?) ++
      (given ++ [((ticket, device), reply)]).map Prod.fst).Perm
        (reached.pending ++ given.map Prod.fst) := by
    refine List.perm_iff_count.mpr fun request => ?_
    have count_eq := taken.count_eq request
    simp only [List.filterMap_cons, Errand.request?, List.count_cons] at count_eq
    simp only [pending, List.map_append, List.map_cons, List.map_nil, List.count_append,
      List.count_cons, List.count_nil]
    omega
  have replies_iff : ∀ other, firstTicket ≤ other → ∀ answer,
      (reached.bus.replies.put ticket reply).get? other = some answer ↔
        ∃ device', ((other, device'), answer) ∈ given ++ [((ticket, device), reply)] :=
    fun other late answer => docket.replies_put_iff first reply late answer
  obtain ⟨serving, lines_eq, refused_eq, next_eq, placed, -, written, working, failed⟩ := docket
  refine ⟨⟨serving.running, serving.staying, serving.defers⟩, lines_eq, refused_eq, next_eq,
    (moved.filter _).trans placed, replies_iff, ?_, working, ?_⟩
  · intro place reply found
    obtain ⟨device, member⟩ := written place reply found
    exact ⟨device, List.mem_append_left _ member⟩
  · intro reason stopped
    obtain ⟨same, device, member⟩ := failed reason stopped
    exact ⟨same, device, List.mem_append_left _ member⟩

theorem work (docket : Docket firstTicket lines read given reached) (hosts : Hosts σ)
    (place : Nat) (host : σ) :
    Docket firstTicket lines read (given ++ reached.answered hosts host (.work place))
      { reached with bus := (reached.bus.work hosts place host).value.1 } := by
  cases found : reached.bus.errands[place]? with
  | none =>
      simp only [Bus.work, answered, found, List.append_nil]
      exact docket
  | some errand =>
      cases errand with
      | password ticket device =>
          simp only [Bus.work, answered, found]
          exact docket.answer found _
      | reboot device decision =>
          have taken := (Bus.cons_eraseIdx_perm found).filterMap Errand.request?
          have placed := docket.placed_of_perm _ (taken.append_left _)
          obtain ⟨serving, lines_eq, refused_eq, next_eq, -, replies_iff, written, working,
            failed⟩ := docket
          simp only [Bus.work, answered, found, List.append_nil]
          exact ⟨⟨serving.running, serving.staying, serving.defers⟩, lines_eq, refused_eq, next_eq,
            placed, replies_iff, written, working, failed⟩

theorem written_concat (docket : Docket firstTicket lines read given reached) {device : Device}
    {reply : Reply}
    (answered : ((firstTicket + reached.replies.length, device), some reply) ∈ given) :
    ∀ (place : Nat) other, (reached.replies ++ [reply])[place]? = some other →
      ∃ device, ((firstTicket + place, device), some other) ∈ given := by
  intro place other found
  rw [List.getElem?_append] at found
  split at found
  · exact docket.written place other found
  · next later =>
      rw [List.getElem?_singleton] at found
      split at found
      · next last =>
          cases found
          have same : place = reached.replies.length := by omega
          exact ⟨device, same ▸ answered⟩
      · cases found

theorem write (docket : Docket firstTicket lines read given reached) :
    Docket firstTicket lines read given (reached.write none) := by
  unfold Connection.write
  split
  · next ticket awaited writing awaits =>
      have written_concat := @docket.written_concat
      obtain ⟨serving, lines_eq, refused_eq, next_eq, placed, replies_iff, written, working,
        failed⟩ := docket
      obtain ⟨length_eq, awaited_eq⟩ := working writing
      rw [awaits, List.length_cons, List.range'_succ, List.cons.injEq] at awaited_eq
      obtain ⟨ticket_eq, awaited_eq⟩ := awaited_eq
      rw [awaits, List.length_cons] at length_eq
      have late : firstTicket ≤ ticket := ticket_eq ▸ Nat.le_add_right firstTicket _
      have answer_eq : reached.answer? ticket =
          (reached.bus.replies.get? ticket).map Bus.replyOf := by
        rw [answer?, refused_eq, if_neg List.not_mem_nil]
      rw [answer_eq]
      cases found : reached.bus.replies.get? ticket with
      | none =>
          exact ⟨serving, lines_eq, refused_eq, next_eq, placed, replies_iff, written,
            fun writing => working writing, failed⟩
      | some answer =>
          obtain ⟨device, member⟩ := (replies_iff ticket late answer).mp found
          rw [ticket_eq] at member
          simp only [Option.map_some]
          cases answer with
          | none =>
              simp only [Bus.replyOf]
              refine ⟨serving, lines_eq, refused_eq, next_eq, placed, replies_iff, written,
                (fun impossible => nomatch impossible), ?_⟩
              intro reason same
              cases same
              exact ⟨rfl, device, member⟩
          | some reply =>
              simp only [Bus.replyOf]
              refine ⟨serving, lines_eq, refused_eq, next_eq, placed, replies_iff,
                written_concat member, fun _ => ?_,
                fun reason stopped => nomatch writing.symm.trans stopped⟩
              simp only [List.length_append, List.length_singleton]
              exact ⟨by omega, awaited_eq⟩
  · exact docket

theorem move (docket : Docket firstTicket lines read given reached) (hosts : Hosts σ)
    {move : Move} (delivers : move.Delivers) (host : σ) :
    ∃ read', Docket firstTicket lines read' (given ++ reached.answered hosts host move)
      (reached.move hosts move host).value.1 := by
  cases move with
  | read =>
      obtain ⟨read', docket⟩ := docket.advance host
      exact ⟨read', (List.append_nil given).symm ▸ docket⟩
  | ask place => exact ⟨read, (List.append_nil given).symm ▸ docket.ask place⟩
  | turn now => exact ⟨read, (List.append_nil given).symm ▸ docket.turn hosts now host⟩
  | work place => exact ⟨read, docket.work hosts place host⟩
  | write failure =>
      cases failure with
      | none => exact ⟨read, (List.append_nil given).symm ▸ docket.write⟩
      | some reason => exact absurd rfl (delivers reason)

theorem run (docket : Docket firstTicket lines read given reached) (hosts : Hosts σ)
    {moves : List Move} (delivers : ∀ move ∈ moves, move.Delivers) (host : σ) :
    ∃ read', Docket firstTicket lines read' (given ++ reached.answers hosts moves host)
      (reached.run hosts moves host).value.1 := by
  induction moves generalizing reached read given host with
  | nil => exact ⟨read, (List.append_nil given).symm ▸ docket⟩
  | cons move moves inductionHypothesis =>
      rw [List.forall_mem_cons] at delivers
      obtain ⟨_, moved⟩ := docket.move hosts delivers.1 host
      obtain ⟨read', left⟩ :=
        inductionHypothesis moved delivers.2 (reached.move hosts move host).value.2
      refine ⟨read', ?_⟩
      rw [run_cons, Act.bind_apply, answers, ← List.append_assoc]
      exact left

end Docket

/-- An answer of a run comes from the hook, which is asked for the device of the request. -/
theorem exists_hook_of_mem_answers {request : Ticket × Device} {answer : Option Reply}
    {connection : Connection} {moves : List Move} {host : σ}
    (member : (request, answer) ∈ connection.answers hosts moves host) :
    ∃ state, (hosts.hook request.2 state).value.1 = answer := by
  induction moves generalizing connection host with
  | nil => cases member
  | cons move moves inductionHypothesis =>
      rcases List.mem_append.mp member with here | later
      · unfold answered at here
        split at here
        · split at here
          · cases List.mem_singleton.mp here
            exact ⟨host, rfl⟩
          · cases here
        · cases here
      · exact inductionHypothesis later

end Connection

end DiskWarden
