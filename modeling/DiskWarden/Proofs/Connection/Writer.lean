import DiskWarden.Proofs.Connection.Moves

/-!
# When the writer does not stop

If every worker answers and the peer takes every reply, then the writer never stops, in whatever
order the parts take their moves.
-/

namespace DiskWarden

/-- Every worker answers its request. -/
def Hosts.Answer {σ : Type} (hosts : Hosts σ) : Prop :=
  ∀ device host, (hosts.hook device host).value.1 ≠ none

/-- No request with a ticket from `firstTicket` on has died. -/
def Bus.Alive (bus : Bus) (firstTicket : Ticket) : Prop :=
  ∀ ticket, firstTicket ≤ ticket → bus.replies.get? ticket ≠ some none

namespace Connection

variable {σ : Type} {hosts : Hosts σ} {firstTicket : Ticket} {connection : Connection}

/-- The writer is at work, and no request that it will come to has died. -/
structure Unfailing (firstTicket : Ticket) (connection : Connection) : Prop where
  serving : connection.bus.Serving
  writing : connection.fault = none
  refused_eq : connection.refused = []
  next_ge : firstTicket ≤ connection.nextTicket
  awaited_ge : ∀ ticket ∈ connection.awaited, firstTicket ≤ ticket
  alive : connection.bus.Alive firstTicket

theorem unfailing_start {bus : Bus} (serving : bus.Serving) (alive : bus.Alive firstTicket)
    (input : Text.Octets) : Unfailing firstTicket (start bus firstTicket input) where
  serving := serving
  writing := rfl
  refused_eq := rfl
  next_ge := Nat.le_refl firstTicket
  awaited_ge _ member := absurd member List.not_mem_nil
  alive := alive

namespace Unfailing

theorem readStep {left : Connection} (unfailing : Unfailing firstTicket connection)
    (step : ReadStep connection left) : Unfailing firstTicket left := by
  obtain ⟨serving, writing, refused_eq, next_ge, awaited_ge, alive⟩ := unfailing
  cases step with
  | rest => exact ⟨serving, writing, refused_eq, next_ge, awaited_ge, alive⟩
  | finish => exact ⟨serving, writing, refused_eq, next_ge, awaited_ge, alive⟩
  | skip => exact ⟨serving, writing, refused_eq, next_ge, awaited_ge, alive⟩
  | quit => exact ⟨serving, writing, refused_eq, next_ge, awaited_ge, alive⟩
  | publish =>
      exact ⟨serving.append Command.noConfusion, writing, refused_eq, next_ge, awaited_ge, alive⟩
  | request =>
      refine ⟨serving, writing, refused_eq, Nat.le_succ_of_le next_ge, ?_, alive⟩
      intro ticket member
      rcases List.mem_append.mp member with earlier | new
      · exact awaited_ge ticket earlier
      · rw [List.mem_singleton.mp new]
        exact next_ge
  | giveUp line unread device going next holds stopped =>
      rw [writing] at stopped
      cases stopped

theorem answer (unfailing : Unfailing firstTicket connection) {ticket : Ticket}
    (member : ticket ∈ connection.awaited) {fault : Fault} :
    connection.answer? ticket ≠ some (.error fault) := by
  have known := unfailing.alive ticket (unfailing.awaited_ge ticket member)
  rw [answer?, unfailing.refused_eq, if_neg List.not_mem_nil]
  cases found : connection.bus.replies.get? ticket with
  | none => exact fun impossible => nomatch impossible
  | some reply =>
      cases reply with
      | none => exact absurd found known
      | some reply => exact fun impossible => nomatch impossible

theorem write (unfailing : Unfailing firstTicket connection) :
    Unfailing firstTicket (connection.write none) := by
  unfold Connection.write
  split
  · next ticket awaited working awaits =>
      have member : ticket ∈ connection.awaited := by
        rw [awaits]
        exact List.mem_cons_self
      split
      · exact unfailing
      · next answered => exact absurd answered (unfailing.answer member)
      · obtain ⟨serving, writing, refused_eq, next_ge, awaited_ge, alive⟩ := unfailing
        refine ⟨serving, writing, refused_eq, next_ge, ?_, alive⟩
        intro other later
        apply awaited_ge other
        rw [awaits]
        exact List.mem_cons_of_mem ticket later
  · exact unfailing

theorem alive_perform {bus : Bus} (answer : hosts.Answer) (alive : bus.Alive firstTicket)
    (errand : Errand) (host : σ) :
    (bus.perform hosts errand host).value.1.Alive firstTicket := by
  cases errand with
  | reboot device decision => exact alive
  | password ticket device =>
      intro other late
      change (bus.replies.put ticket (hosts.hook device host).value.1).get? other ≠ some none
      rw [Table.get?_put]
      split
      · intro died
        exact answer device host (Option.some.inj died)
      · exact alive other late

theorem move (unfailing : Unfailing firstTicket connection) (answer : hosts.Answer) {move : Move}
    (writable : ∀ reason, move ≠ .write (some reason)) (host : σ) :
    Unfailing firstTicket (connection.move hosts move host).value.1 := by
  cases move with
  | read => exact unfailing.readStep (Connection.readStep unfailing.serving host).1
  | ask place =>
      obtain ⟨serving, writing, refused_eq, next_ge, awaited_ge, alive⟩ := unfailing
      simp only [Connection.move, Act.pure_apply]
      rcases ask_cases serving place with same | ⟨ticket, device, unasked, same⟩
      · rw [same]
        exact ⟨serving, writing, refused_eq, next_ge, awaited_ge, alive⟩
      · rw [same]
        exact ⟨serving.append Command.noConfusion, writing, refused_eq, next_ge, awaited_ge,
          alive⟩
  | turn now =>
      obtain ⟨serving, writing, refused_eq, next_ge, awaited_ge, alive⟩ := unfailing
      have turned := serving.turned hosts now host
      refine ⟨turned.serving, writing, refused_eq, next_ge, awaited_ge, ?_⟩
      intro ticket late
      change (connection.bus.turn hosts now host).value.1.replies.get? ticket ≠ some none
      rw [turned.replies_eq]
      exact alive ticket late
  | work place =>
      obtain ⟨serving, writing, refused_eq, next_ge, awaited_ge, alive⟩ := unfailing
      have framed := Bus.framed_work hosts connection.bus place host
      refine ⟨framed.serving serving, writing, refused_eq, next_ge, awaited_ge, ?_⟩
      change (connection.bus.work hosts place host).value.1.Alive firstTicket
      unfold Bus.work
      cases connection.bus.errands[place]? with
      | none => exact alive
      | some errand =>
          have left : Bus.Alive
              { connection.bus with errands := connection.bus.errands.eraseIdx place }
              firstTicket := alive
          exact alive_perform answer left errand host
  | write failure =>
      cases failure with
      | none => exact unfailing.write
      | some reason => exact absurd rfl (writable reason)

theorem run (unfailing : Unfailing firstTicket connection) (answer : hosts.Answer)
    {moves : List Move} (writable : ∀ reason, .write (some reason) ∉ moves) (host : σ) :
    Unfailing firstTicket (connection.run hosts moves host).value.1 := by
  induction moves generalizing connection host with
  | nil => exact unfailing
  | cons move moves inductionHypothesis =>
      have first := unfailing.move answer
        (fun reason same => writable reason (same ▸ List.mem_cons_self)) host
      exact inductionHypothesis first
        (fun reason member => writable reason (List.mem_cons_of_mem move member)) _

end Unfailing

end Connection

end DiskWarden
