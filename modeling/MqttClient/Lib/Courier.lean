import Mathlib.Data.List.Perm.Basic
import Mathlib.Data.List.Nodup

/-! Acknowledged delivery in order, over connections that lose what they have not
delivered yet. The receiver answers each parcel it receives on a connection at most once,
in any order; parcels without an answer are sent again on the next connection. -/

/-- Tickets name parcels in the order of their submission. -/
structure Courier where
  fresh : Nat
  /-- Submitted and not yet sent. -/
  queued : List Nat
  /-- Sent and neither completed nor cancelled. -/
  held : List Nat
  /-- Held parcels that are yet to be sent on this connection. -/
  waiting : List Nat
  transit : List Nat
  /-- Received on this connection and not answered. -/
  owed : List Nat
  answers : List Nat
  connection : Nat
  live : Bool
  /-- Parcels sent for the first time, each with its connection. -/
  opened : List (Nat × Nat)
  /-- Everything received, each with its connection. -/
  received : List (Nat × Nat)
  completed : List Nat
  cancelled : List Nat

namespace Courier

def empty : Courier := ⟨0, [], [], [], [], [], [], 0, false, [], [], [], []⟩

/-- What remains of the held parcels. -/
def settle (courier : Courier) (keep : Bool) : Courier :=
  if keep then { courier with waiting := courier.held }
  else { courier with held := [], waiting := [], cancelled := courier.cancelled ++ courier.held }

inductive Step : Courier → Courier → Prop where
  | wait (courier : Courier) (fresh : Nat) (grown : courier.fresh ≤ fresh) :
      Step courier { courier with fresh := fresh }
  | submit (courier : Courier) :
      Step courier
        { courier with queued := courier.queued ++ [courier.fresh], fresh := courier.fresh + 1 }
  | open (courier : Courier) (ticket : Nat) (rest : List Nat) (live : courier.live = true)
      (drained : courier.waiting = []) (head : courier.queued = ticket :: rest) :
      Step courier
        { courier with
          queued := rest
          held := courier.held ++ [ticket]
          transit := courier.transit ++ [ticket]
          opened := courier.opened ++ [(courier.connection, ticket)] }
  | resend (courier : Courier) (ticket : Nat) (rest : List Nat) (live : courier.live = true)
      (head : courier.waiting = ticket :: rest) :
      Step courier { courier with waiting := rest, transit := courier.transit ++ [ticket] }
  | receive (courier : Courier) (ticket : Nat) (rest : List Nat)
      (head : courier.transit = ticket :: rest) :
      Step courier
        { courier with
          transit := rest
          owed := courier.owed ++ [ticket]
          received := courier.received ++ [(courier.connection, ticket)] }
  | answer (courier : Courier) (early : List Nat) (ticket : Nat) (late : List Nat)
      (split : courier.owed = early ++ ticket :: late) :
      Step courier
        { courier with owed := early ++ late, answers := courier.answers ++ [ticket] }
  | complete (courier : Courier) (ticket : Nat) (rest : List Nat) (live : courier.live = true)
      (head : courier.answers = ticket :: rest) :
      Step courier
        { courier with
          answers := rest
          held := courier.held.erase ticket
          completed := courier.completed ++ [ticket] }
  /-- The connection ends. What is in transit may still be received. -/
  | lose (courier : Courier) (keep : Bool) (live : courier.live = true) :
      Step courier { courier.settle keep with live := false }
  /-- The next connection begins, and nothing of the previous one is received any more. -/
  | connect (courier : Courier) (keep : Bool) (idle : courier.live = false) :
      Step courier
        { courier.settle keep with
          live := true, connection := courier.connection + 1, transit := [], owed := []
          answers := [] }

/-- Received on one connection. -/
def receivedOn (courier : Courier) (connection : Nat) : List Nat :=
  (courier.received.filter (fun receipt => receipt.1 == connection)).map Prod.snd

/-- Sent on the current connection. -/
def sent (courier : Courier) : List Nat :=
  courier.receivedOn courier.connection ++ courier.transit

/-- Received or still on its way, over all connections. -/
def stream (courier : Courier) : List Nat := courier.received.map Prod.snd ++ courier.transit

/-- Every parcel that was sent earlier arrives before the ticket or is cancelled. -/
def Preceded (courier : Courier) (early : List Nat) (ticket : Nat) : Prop :=
  ∀ opened ∈ courier.opened, opened.2 < ticket → opened.2 ∈ early ∨ opened.2 ∈ courier.cancelled

/-- Each parcel is in one place, and tickets are in the order of their submission. -/
structure Sound (courier : Courier) : Prop where
  ordered : (courier.opened.map Prod.snd ++ courier.queued).Pairwise (· < ·)
  issued : ∀ ticket ∈ courier.opened.map Prod.snd ++ courier.queued, ticket < courier.fresh
  kept : courier.held.Sublist (courier.opened.map Prod.snd)
  suffix : courier.waiting <:+ courier.held
  idle : courier.live = false → courier.waiting = courier.held
  placed : courier.live = true →
    (courier.transit ++ courier.owed ++ courier.answers ++ courier.waiting).Perm courier.held
  opens : ∀ opened ∈ courier.opened, opened.1 ≤ courier.connection
  earlier : courier.live = true → ∀ opened ∈ courier.opened, opened.2 ∈ courier.waiting →
    opened.1 < courier.connection

/-- What the receiver got, and what it will get. -/
structure Delivered (courier : Courier) : Prop where
  receives : ∀ receipt ∈ courier.received, receipt.1 ≤ courier.connection
  sentOrder : courier.sent.Pairwise (· < ·)
  /-- What is sent on the connection comes before what is yet to be sent on it. -/
  sentFirst : courier.live = true → ∀ ticket ∈ courier.sent,
    ∀ later ∈ courier.waiting ++ courier.queued, ticket < later
  connections : ∀ connection, (courier.receivedOn connection).Pairwise (· < ·)
  known : ∀ ticket ∈ courier.stream, ticket ∈ courier.opened.map Prod.snd
  answered : ∀ ticket ∈ courier.owed ++ courier.answers ++ courier.completed,
    ticket ∈ courier.received.map Prod.snd
  accounted : ∀ opened ∈ courier.opened, opened.2 ∈ courier.held ∨
    opened.2 ∈ courier.completed ∨ opened.2 ∈ courier.cancelled
  first : ∀ early ticket late, courier.stream = early ++ ticket :: late →
    courier.Preceded early ticket

namespace Sound

variable {courier next : Courier}

theorem empty : Sound Courier.empty where
  ordered := List.Pairwise.nil
  issued := by simp [Courier.empty]
  kept := List.Sublist.refl _
  suffix := List.suffix_rfl
  idle := fun _ => rfl
  placed := by simp [Courier.empty]
  opens := by simp [Courier.empty]
  earlier := by simp [Courier.empty]

theorem held_ordered (sound : Sound courier) : courier.held.Pairwise (· < ·) :=
  (List.pairwise_append.mp sound.ordered).1.sublist sound.kept

theorem held_nodup (sound : Sound courier) : courier.held.Nodup :=
  sound.held_ordered.imp Nat.ne_of_lt

/-- No parcel is in two places. -/
theorem places_nodup (sound : Sound courier) (live : courier.live = true) :
    (courier.transit ++ courier.owed ++ courier.answers ++ courier.waiting).Nodup :=
  (sound.placed live).nodup_iff.mpr sound.held_nodup

private theorem settle (sound : Sound courier) (keep : Bool) :
    (courier.settle keep).held.Sublist (courier.opened.map Prod.snd) ∧
      (courier.settle keep).waiting = (courier.settle keep).held ∧
      (courier.settle keep).opened = courier.opened ∧
      (courier.settle keep).queued = courier.queued ∧
      (courier.settle keep).fresh = courier.fresh ∧
      (courier.settle keep).connection = courier.connection := by
  cases keep with
  | true => exact ⟨sound.kept, rfl, rfl, rfl, rfl, rfl⟩
  | false => exact ⟨List.nil_sublist _, rfl, rfl, rfl, rfl, rfl⟩

private theorem submit (sound : Sound courier) :
    Sound { courier with
      queued := courier.queued ++ [courier.fresh], fresh := courier.fresh + 1 } := by
  refine ⟨?_, ?_, sound.kept, sound.suffix, sound.idle, sound.placed, sound.opens, sound.earlier⟩
  · show (courier.opened.map Prod.snd ++ (courier.queued ++ [courier.fresh])).Pairwise (· < ·)
    rw [← List.append_assoc, List.pairwise_append]
    refine ⟨sound.ordered, List.pairwise_singleton _ _, ?_⟩
    intro ticket member last single
    rw [List.mem_singleton.mp single]
    exact sound.issued ticket member
  · intro ticket member
    show ticket < courier.fresh + 1
    rw [← List.append_assoc, List.mem_append, List.mem_singleton] at member
    rcases member with old | rfl
    · exact Nat.lt_succ_of_lt (sound.issued ticket old)
    · exact Nat.lt_succ_self _

private theorem openHead (sound : Sound courier) {ticket : Nat} {rest : List Nat}
    (drained : courier.waiting = []) (live : courier.live = true)
    (head : courier.queued = ticket :: rest) :
    Sound { courier with
      queued := rest
      held := courier.held ++ [ticket]
      transit := courier.transit ++ [ticket]
      opened := courier.opened ++ [(courier.connection, ticket)] } := by
  have regrouped : (courier.opened ++ [(courier.connection, ticket)]).map Prod.snd ++ rest =
      courier.opened.map Prod.snd ++ courier.queued := by
    simp [head]
  have placed := sound.placed live
  constructor
  · rw [regrouped]
    exact sound.ordered
  · rw [regrouped]
    exact sound.issued
  · rw [List.map_append]
    exact sound.kept.append (List.Sublist.refl _)
  · simp [drained]
  · simp [live]
  · intro _
    rw [drained, List.append_nil] at placed ⊢
    have moved : (courier.transit ++ [ticket] ++ (courier.owed ++ courier.answers)).Perm
        (courier.transit ++ (courier.owed ++ courier.answers) ++ [ticket]) := by
      rw [List.append_assoc, List.append_assoc]
      exact List.perm_append_comm.append_left _
    rw [← List.append_assoc, ← List.append_assoc] at moved
    exact moved.trans (placed.append_right _)
  · intro opened member
    rcases List.mem_append.mp member with old | new
    · exact sound.opens opened old
    · obtain rfl := List.mem_singleton.mp new
      exact Nat.le_refl _
  · simp [drained]

private theorem resend (sound : Sound courier) {ticket : Nat} {rest : List Nat}
    (live : courier.live = true) (head : courier.waiting = ticket :: rest) :
    Sound { courier with waiting := rest, transit := courier.transit ++ [ticket] } := by
  have suffix := sound.suffix
  have placed := sound.placed live
  rw [head] at suffix placed
  refine ⟨sound.ordered, sound.issued, sound.kept, (List.suffix_cons ticket rest).trans suffix,
    ?_, ?_, sound.opens, ?_⟩
  · simp [live]
  · intro _
    have moved : (ticket :: (courier.owed ++ courier.answers ++ rest)).Perm
        (courier.owed ++ courier.answers ++ ticket :: rest) := List.perm_middle.symm
    have whole := moved.append_left courier.transit
    simp only [List.append_assoc, List.cons_append] at whole placed ⊢
    exact whole.trans placed
  · intro _ opened member waits
    exact sound.earlier live opened member (head ▸ List.mem_cons_of_mem _ waits)

private theorem complete (sound : Sound courier) {ticket : Nat} {rest : List Nat}
    (live : courier.live = true) (head : courier.answers = ticket :: rest) :
    Sound { courier with
      answers := rest
      held := courier.held.erase ticket
      completed := courier.completed ++ [ticket] } := by
  have distinct := sound.places_nodup live
  have placed := sound.placed live
  rw [head] at distinct placed
  have answered : ticket ∉ courier.waiting := by
    intro waits
    rw [List.nodup_append] at distinct
    exact distinct.2.2 ticket (by simp) ticket waits rfl
  refine ⟨sound.ordered, sound.issued, List.erase_sublist.trans sound.kept, ?_, ?_, ?_,
    sound.opens, sound.earlier⟩
  · obtain ⟨front, split⟩ := sound.suffix
    have here : ticket ∈ front := by
      have held : ticket ∈ courier.held := placed.subset (by simp)
      rw [← split] at held
      exact (List.mem_append.mp held).resolve_right answered
    refine ⟨front.erase ticket, ?_⟩
    rw [← split, List.erase_append_left _ here]
  · simp [live]
  · intro _
    have moved : (courier.transit ++ courier.owed ++ ticket :: rest ++ courier.waiting).Perm
        (ticket :: (courier.transit ++ courier.owed ++ rest ++ courier.waiting)) := by
      rw [List.append_assoc _ (ticket :: rest), List.cons_append, List.append_assoc _ rest]
      exact List.perm_middle
    have erased := (moved.symm.trans placed).erase ticket
    rwa [List.erase_cons_head] at erased

theorem step (sound : Sound courier) (step : Step courier next) : Sound next := by
  cases step with
  | wait fresh grown =>
    exact ⟨sound.ordered,
      fun ticket member => Nat.lt_of_lt_of_le (sound.issued ticket member) grown, sound.kept,
      sound.suffix, sound.idle, sound.placed, sound.opens, sound.earlier⟩
  | submit => exact sound.submit
  | «open» ticket rest live drained head => exact sound.openHead drained live head
  | resend ticket rest live head => exact sound.resend live head
  | receive ticket rest head =>
    refine ⟨sound.ordered, sound.issued, sound.kept, sound.suffix, sound.idle, ?_, sound.opens,
      sound.earlier⟩
    intro live
    have placed := sound.placed live
    have moved : (rest ++ courier.owed ++ ticket :: (courier.answers ++ courier.waiting)).Perm
        (ticket :: (rest ++ courier.owed ++ (courier.answers ++ courier.waiting))) :=
      List.perm_middle
    rw [head] at placed
    simp only [List.append_assoc, List.cons_append] at moved placed ⊢
    exact moved.trans placed
  | answer early ticket late split =>
    refine ⟨sound.ordered, sound.issued, sound.kept, sound.suffix, sound.idle, ?_, sound.opens,
      sound.earlier⟩
    intro live
    have moved : ((early ++ late) ++ courier.answers ++ [ticket]).Perm
        (early ++ ticket :: late ++ courier.answers) :=
      List.perm_append_comm.trans (List.perm_middle.symm.append_right courier.answers)
    have whole := (moved.append_right courier.waiting).append_left courier.transit
    have placed := sound.placed live
    rw [split] at placed
    simp only [List.append_assoc] at whole placed ⊢
    exact whole.trans placed
  | complete ticket rest live head => exact sound.complete live head
  | lose keep live =>
    obtain ⟨kept, waiting, opened, queued, fresh, connection⟩ := sound.settle keep
    constructor
    · rw [opened, queued]
      exact sound.ordered
    · rw [opened, queued, fresh]
      exact sound.issued
    · rw [opened]
      exact kept
    · exact waiting ▸ List.suffix_rfl
    · exact fun _ => waiting
    · simp
    · rw [opened, connection]
      exact sound.opens
    · simp
  | connect keep idle =>
    obtain ⟨kept, waiting, opened, queued, fresh, connection⟩ := sound.settle keep
    constructor
    · rw [opened, queued]
      exact sound.ordered
    · rw [opened, queued, fresh]
      exact sound.issued
    · rw [opened]
      exact kept
    · exact waiting ▸ List.suffix_rfl
    · simp
    · intro _
      simp [waiting]
    · rw [opened]
      exact fun first member => Nat.le_succ_of_le (sound.opens first member)
    · rw [opened]
      exact fun _ first member _ => Nat.lt_succ_of_le (sound.opens first member)

end Sound

/-- What holds of every element and those before it holds after one more element. -/
private theorem each_snoc {stream : List Nat} {last : Nat} {Before : List Nat → Nat → Prop}
    (old : ∀ early ticket late, stream = early ++ ticket :: late → Before early ticket)
    (new : Before stream last) :
    ∀ early ticket late, stream ++ [last] = early ++ ticket :: late → Before early ticket := by
  intro early ticket late split
  rcases List.eq_nil_or_concat late with rfl | ⟨front, final, rfl⟩
  · obtain ⟨rfl, same⟩ := List.append_inj' split rfl
    cases same
    exact new
  · refine old early ticket front ?_
    rw [List.concat_eq_append, ← List.cons_append, ← List.append_assoc] at split
    exact (List.append_inj' split rfl).1

namespace Delivered

variable {courier next : Courier}

theorem empty : Delivered Courier.empty where
  receives := by simp [Courier.empty]
  sentOrder := List.Pairwise.nil
  sentFirst := by simp [Courier.empty]
  connections := fun _ => List.Pairwise.nil
  known := by simp [Courier.empty, stream]
  answered := by simp [Courier.empty]
  accounted := by simp [Courier.empty]
  first := by simp [Courier.empty, stream]

theorem sent_subset_stream (courier : Courier) : ∀ ticket ∈ courier.sent,
    ticket ∈ courier.stream := by
  intro ticket member
  rcases List.mem_append.mp member with got | moving
  · exact List.mem_append_left _ ((List.filter_sublist.map _).subset got)
  · exact List.mem_append_right _ moving

theorem before_queued (delivered : Delivered courier) (sound : Sound courier) {ticket later : Nat}
    (streamed : ticket ∈ courier.stream) (queued : later ∈ courier.queued) : ticket < later :=
  (List.pairwise_append.mp sound.ordered).2.2 ticket (delivered.known ticket streamed) later queued

/-- A held parcel that does not wait has been sent on this connection. -/
theorem streamed (delivered : Delivered courier) (sound : Sound courier)
    (live : courier.live = true) {ticket : Nat} (held : ticket ∈ courier.held)
    (sentAgain : ticket ∉ courier.waiting) : ticket ∈ courier.stream := by
  have placed := (sound.placed live).symm.subset held
  rcases List.mem_append.mp placed with moving | waits
  · rw [List.append_assoc, List.mem_append] at moving
    rcases moving with transit | got
    · exact List.mem_append_right _ transit
    · exact List.mem_append_left _ (delivered.answered ticket (List.mem_append_left _ got))
  · exact absurd waits sentAgain

/-- Everything sent before the next parcel to be sent has arrived before it, or never will. -/
private theorem preceded (delivered : Delivered courier) (sound : Sound courier)
    (live : courier.live = true) {ticket : Nat}
    (next : ∀ other ∈ courier.waiting, ticket ≤ other) :
    courier.Preceded courier.stream ticket := by
  intro opened member smaller
  rcases delivered.accounted opened member with held | completed | cancelled
  · refine .inl (delivered.streamed sound live held fun waits => ?_)
    exact absurd (next opened.2 waits) (Nat.not_le_of_lt smaller)
  · exact .inl (List.mem_append_left _
      (delivered.answered opened.2 (List.mem_append_right _ completed)))
  · exact .inr cancelled

/-- One more parcel is sent, which comes after everything sent and before the rest. -/
private theorem sendLast (delivered : Delivered courier) (next : Courier) (ticket : Nat)
    (received : next.received = courier.received)
    (connection : next.connection = courier.connection)
    (transit : next.transit = courier.transit ++ [ticket])
    (above : ∀ other ∈ courier.sent, other < ticket)
    (below : ∀ later ∈ next.waiting ++ next.queued, ticket < later) :
    next.sent.Pairwise (· < ·) ∧
      ∀ other ∈ next.sent, ∀ later ∈ next.waiting ++ next.queued, other < later := by
  have sent : next.sent = courier.sent ++ [ticket] := by
    simp [Courier.sent, receivedOn, received, connection, transit]
  rw [sent]
  constructor
  · rw [List.pairwise_append]
    refine ⟨delivered.sentOrder, List.pairwise_singleton _ _, ?_⟩
    intro other member last single
    rw [List.mem_singleton.mp single]
    exact above other member
  · intro other member later follows
    rcases List.mem_append.mp member with old | new
    · exact Nat.lt_trans (above other old) (below later follows)
    · rw [List.mem_singleton.mp new]
      exact below later follows

private theorem openHead (delivered : Delivered courier) (sound : Sound courier) {ticket : Nat}
    {rest : List Nat} (live : courier.live = true) (drained : courier.waiting = [])
    (head : courier.queued = ticket :: rest)
    (after : next = { courier with
      queued := rest
      held := courier.held ++ [ticket]
      transit := courier.transit ++ [ticket]
      opened := courier.opened ++ [(courier.connection, ticket)] }) : Delivered next := by
  have stream : next.stream = courier.stream ++ [ticket] := by simp [Courier.stream, after]
  have receivedOn : next.receivedOn = courier.receivedOn := by rw [after]; rfl
  have queueOrder := (List.pairwise_append.mp sound.ordered).2.1
  rw [head, List.pairwise_cons] at queueOrder
  have above : ∀ other ∈ courier.stream, other < ticket := fun other member =>
    delivered.before_queued sound member (head ▸ List.mem_cons_self)
  have sent := delivered.sendLast next ticket (by rw [after]) (by rw [after]) (by rw [after])
    (fun other member => above other (sent_subset_stream courier other member))
    (by rw [after]; simpa [drained] using queueOrder.1)
  refine ⟨?_, sent.1, fun _ => sent.2, receivedOn ▸ delivered.connections, ?_, ?_, ?_, ?_⟩
  · rw [after]
    exact delivered.receives
  · intro other member
    rw [stream] at member
    rw [after, List.map_append]
    rcases List.mem_append.mp member with old | new
    · exact List.mem_append_left _ (delivered.known other old)
    · exact List.mem_append_right _ new
  · rw [after]
    exact delivered.answered
  · rw [after]
    intro opened member
    rcases List.mem_append.mp member with old | new
    · rcases delivered.accounted opened old with held | gone
      · exact .inl (List.mem_append_left _ held)
      · exact .inr gone
    · rw [List.mem_singleton.mp new]
      exact .inl (List.mem_append_right _ (List.mem_singleton_self _))
  · intro early other late split
    rw [stream] at split
    have bounded : other ≤ ticket := by
      have member : other ∈ courier.stream ++ [ticket] := split ▸ by simp
      rcases List.mem_append.mp member with old | new
      · exact Nat.le_of_lt (above other old)
      · exact Nat.le_of_eq (List.mem_singleton.mp new)
    have nothing : ∀ other ∈ courier.waiting, ticket ≤ other := by simp [drained]
    have before : courier.Preceded early other :=
      each_snoc delivered.first (delivered.preceded sound live nothing) early other late split
    rw [after]
    intro opened member smaller
    rcases List.mem_append.mp member with old | new
    · exact before opened old smaller
    · rw [List.mem_singleton.mp new] at smaller
      exact absurd bounded (Nat.not_le_of_lt smaller)

private theorem resend (delivered : Delivered courier) (sound : Sound courier) {ticket : Nat}
    {rest : List Nat} (live : courier.live = true) (head : courier.waiting = ticket :: rest)
    (after : next = { courier with waiting := rest, transit := courier.transit ++ [ticket] }) :
    Delivered next := by
  have stream : next.stream = courier.stream ++ [ticket] := by simp [Courier.stream, after]
  have receivedOn : next.receivedOn = courier.receivedOn := by rw [after]; rfl
  have order := sound.held_ordered.sublist sound.suffix.sublist
  rw [head, List.pairwise_cons] at order
  have known : ticket ∈ courier.opened.map Prod.snd :=
    sound.kept.subset (sound.suffix.subset (head ▸ List.mem_cons_self))
  have sent := delivered.sendLast next ticket (by rw [after]) (by rw [after]) (by rw [after])
    (fun other member => delivered.sentFirst live other member ticket (by simp [head])) (by
      rw [after]
      intro later follows
      rcases List.mem_append.mp follows with waits | queued
      · exact order.1 later waits
      · exact (List.pairwise_append.mp sound.ordered).2.2 ticket known later queued)
  refine ⟨?_, sent.1, fun _ => sent.2, receivedOn ▸ delivered.connections, ?_, ?_, ?_, ?_⟩
  · rw [after]
    exact delivered.receives
  · intro other member
    rw [stream] at member
    rw [after]
    rcases List.mem_append.mp member with old | new
    · exact delivered.known other old
    · exact List.mem_singleton.mp new ▸ known
  · rw [after]
    exact delivered.answered
  · rw [after]
    exact delivered.accounted
  · intro early other late split
    rw [stream] at split
    have nearest : ∀ other ∈ courier.waiting, ticket ≤ other := by
      intro other waits
      rw [head] at waits
      rcases List.mem_cons.mp waits with rfl | later
      · exact Nat.le_refl _
      · exact Nat.le_of_lt (order.1 other later)
    rw [after]
    exact each_snoc delivered.first (delivered.preceded sound live nearest) early other late split

private theorem receive (delivered : Delivered courier) {ticket : Nat} {rest : List Nat}
    (head : courier.transit = ticket :: rest)
    (after : next = { courier with
      transit := rest
      owed := courier.owed ++ [ticket]
      received := courier.received ++ [(courier.connection, ticket)] }) : Delivered next := by
  have receivedOn : ∀ connection, next.receivedOn connection =
      courier.receivedOn connection ++
        if courier.connection = connection then [ticket] else [] := by
    intro connection
    by_cases same : courier.connection = connection
    · simp [Courier.receivedOn, after, same]
    · simp [Courier.receivedOn, after, same]
  have sent : next.sent = courier.sent := by
    have here := receivedOn courier.connection
    simp only [if_true] at here
    have connection : next.connection = courier.connection := by rw [after]
    have transit : next.transit = rest := by rw [after]
    rw [Courier.sent, connection, here, transit, Courier.sent, head, List.append_assoc,
      List.singleton_append]
  have stream : next.stream = courier.stream := by
    simp [Courier.stream, head, after]
  constructor
  · rw [after]
    intro receipt member
    rcases List.mem_append.mp member with old | new
    · exact delivered.receives receipt old
    · obtain rfl := List.mem_singleton.mp new
      exact Nat.le_refl _
  · exact sent ▸ delivered.sentOrder
  · rw [sent, after]
    exact delivered.sentFirst
  · intro connection
    rw [receivedOn]
    by_cases here : courier.connection = connection
    · rw [if_pos here]
      refine delivered.sentOrder.sublist ?_
      rw [Courier.sent, head, here]
      exact (List.Sublist.refl _).append (by simp)
    · rw [if_neg here, List.append_nil]
      exact delivered.connections connection
  · rw [stream, after]
    exact delivered.known
  · rw [after]
    intro other member
    rw [List.map_append]
    simp only [List.mem_append, List.mem_singleton] at member
    have old : other ∈ courier.owed ++ courier.answers ++ courier.completed ∨ other = ticket := by
      simp only [List.mem_append]
      tauto
    rcases old with answered | rfl
    · exact List.mem_append_left _ (delivered.answered other answered)
    · exact List.mem_append_right _ (List.mem_singleton_self _)
  · rw [after]
    exact delivered.accounted
  · rw [stream, after]
    exact delivered.first

/-- When a connection ends, held parcels are kept or cancelled. -/
private theorem settle (delivered : Delivered courier) (keep : Bool) :
    (∀ opened ∈ courier.opened, opened.2 ∈ (courier.settle keep).held ∨
      opened.2 ∈ courier.completed ∨ opened.2 ∈ (courier.settle keep).cancelled) ∧
      ∀ ticket ∈ courier.cancelled, ticket ∈ (courier.settle keep).cancelled := by
  cases keep with
  | true => exact ⟨delivered.accounted, fun _ => id⟩
  | false =>
    refine ⟨fun opened member => .inr ?_, fun _ => List.mem_append_left _⟩
    rcases delivered.accounted opened member with held | completed | cancelled
    · exact .inr (List.mem_append_right _ held)
    · exact .inl completed
    · exact .inr (List.mem_append_left _ cancelled)

private theorem settle_history (courier : Courier) (keep : Bool) :
    (courier.settle keep).opened = courier.opened ∧
      (courier.settle keep).received = courier.received ∧
      (courier.settle keep).completed = courier.completed ∧
      (courier.settle keep).connection = courier.connection ∧
      (courier.settle keep).transit = courier.transit ∧
      (courier.settle keep).owed = courier.owed ∧
      (courier.settle keep).answers = courier.answers := by
  cases keep <;> exact ⟨rfl, rfl, rfl, rfl, rfl, rfl, rfl⟩

private theorem lose (delivered : Delivered courier) (keep : Bool)
    (after : next = { courier.settle keep with live := false }) : Delivered next := by
  obtain ⟨opened, received, completed, connection, transit, owed, answers⟩ :=
    settle_history courier keep
  obtain ⟨accounted, cancelled⟩ := delivered.settle keep
  have receivedOn : next.receivedOn = courier.receivedOn := by
    funext connection
    simp only [Courier.receivedOn, after, received]
  have sent : next.sent = courier.sent := by
    rw [Courier.sent, receivedOn]
    simp only [after, connection, transit]
    rfl
  have stream : next.stream = courier.stream := by
    simp only [Courier.stream, after, received, transit]
  refine ⟨?_, sent ▸ delivered.sentOrder, ?_, receivedOn ▸ delivered.connections, ?_, ?_, ?_, ?_⟩
  · rw [after]
    simp only [received, connection]
    exact delivered.receives
  · simp [after]
  · rw [stream, after]
    simp only [opened]
    exact delivered.known
  · rw [after]
    simp only [owed, answers, completed, received]
    exact delivered.answered
  · rw [after]
    simp only [opened, completed]
    exact accounted
  · intro early ticket late split first member smaller
    rw [stream] at split
    rw [after] at member ⊢
    simp only [opened] at member
    exact (delivered.first early ticket late split first member smaller).imp_right (cancelled _)

private theorem connect (delivered : Delivered courier) (keep : Bool)
    (after : next = { courier.settle keep with
      live := true, connection := courier.connection + 1, transit := [], owed := []
      answers := [] }) : Delivered next := by
  obtain ⟨opened, received, completed, _, _, _, _⟩ := settle_history courier keep
  obtain ⟨accounted, cancelled⟩ := delivered.settle keep
  have receivedOn : next.receivedOn = courier.receivedOn := by
    funext connection
    simp only [Courier.receivedOn, after, received]
  have sent : next.sent = [] := by
    have nothing : courier.receivedOn (courier.connection + 1) = [] := by
      rw [Courier.receivedOn, List.map_eq_nil_iff, List.filter_eq_nil_iff]
      intro receipt member same
      have bound := delivered.receives receipt member
      rw [beq_iff_eq.mp same] at bound
      omega
    rw [Courier.sent, receivedOn]
    simp only [after, nothing, List.append_nil]
  have stream : next.stream = courier.received.map Prod.snd := by
    simp [Courier.stream, after, received]
  refine ⟨?_, by simp [sent], by simp [sent], receivedOn ▸ delivered.connections, ?_, ?_, ?_, ?_⟩
  · rw [after]
    simp only [received]
    exact fun receipt member => Nat.le_succ_of_le (delivered.receives receipt member)
  · rw [stream, after]
    simp only [opened]
    exact fun ticket member => delivered.known ticket (List.mem_append_left _ member)
  · rw [after]
    simp only [completed, received, List.nil_append]
    exact fun ticket member => delivered.answered ticket (List.mem_append_right _ member)
  · rw [after]
    simp only [opened, completed]
    exact accounted
  · intro early ticket late split first member smaller
    rw [stream] at split
    rw [after] at member ⊢
    simp only [opened] at member
    have longer : courier.stream = early ++ ticket :: (late ++ courier.transit) := by
      rw [Courier.stream, split]
      simp
    exact (delivered.first early ticket _ longer first member smaller).imp_right (cancelled _)

theorem step (delivered : Delivered courier) (sound : Sound courier) (step : Step courier next) :
    Delivered next := by
  cases step with
  | wait fresh grown =>
    exact ⟨delivered.receives, delivered.sentOrder, delivered.sentFirst, delivered.connections,
      delivered.known, delivered.answered, delivered.accounted, delivered.first⟩
  | submit =>
    refine ⟨delivered.receives, delivered.sentOrder, ?_, delivered.connections, delivered.known,
      delivered.answered, delivered.accounted, delivered.first⟩
    intro live ticket member later follows
    have follows : later ∈ courier.waiting ++ courier.queued ∨ later = courier.fresh := by
      simpa [or_assoc] using follows
    rcases follows with old | rfl
    · exact delivered.sentFirst live ticket member later old
    · exact sound.issued ticket (List.mem_append_left _
        (delivered.known ticket (sent_subset_stream courier ticket member)))
  | «open» ticket rest live drained head => exact delivered.openHead sound live drained head rfl
  | resend ticket rest live head => exact delivered.resend sound live head rfl
  | receive ticket rest head => exact delivered.receive head rfl
  | answer early ticket late split =>
    refine ⟨delivered.receives, delivered.sentOrder, delivered.sentFirst, delivered.connections,
      delivered.known, ?_, delivered.accounted, delivered.first⟩
    intro other member
    apply delivered.answered other
    simp only [split, List.mem_append, List.mem_cons, List.not_mem_nil] at member ⊢
    tauto
  | complete ticket rest live head =>
    refine ⟨delivered.receives, delivered.sentOrder, delivered.sentFirst, delivered.connections,
      delivered.known, ?_, ?_, delivered.first⟩
    · intro other member
      apply delivered.answered other
      simp only [head, List.mem_append, List.mem_cons, List.not_mem_nil] at member ⊢
      tauto
    · intro opened member
      rcases delivered.accounted opened member with held | completed | cancelled
      · by_cases same : opened.2 = ticket
        · exact .inr (.inl (List.mem_append_right _ (by simp [same])))
        · exact .inl ((List.mem_erase_of_ne same).mpr held)
      · exact .inr (.inl (List.mem_append_left _ completed))
      · exact .inr (.inr cancelled)
  | lose keep live => exact delivered.lose keep rfl
  | connect keep idle => exact delivered.connect keep rfl

end Delivered

end Courier
