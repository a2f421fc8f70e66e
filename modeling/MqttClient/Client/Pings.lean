import MqttClient.Lib.Fifo
import MqttClient.Client.Exchanges

/-! PINGREQ and PINGRESP as an observer of the connections sees them. The session keeps one
queue for the pings of the application and those of the keep-alive timer. -/

namespace MqttClient.Client

open MqttClient.Proto

/-- A PINGREQ that was sent. A PINGREQ of the timer has no notifier. -/
structure Ping where
  connection : Nat
  sentAt : Nat
  notifier : Option Notifier
  deriving DecidableEq

/-- A PINGRESP that arrived while a PINGREQ was outstanding. -/
structure Pong where
  connection : Nat
  receivedAt : Nat
  deriving DecidableEq

structure PingLog where
  sent : List Ping := []
  answers : List Pong := []
  deriving DecidableEq

namespace PingLog

variable (log : PingLog) (connection : Nat)

def sentOn : List Ping := log.sent.filter (·.connection == connection)

def answersOn : List Pong := log.answers.filter (·.connection == connection)

/-- The PINGREQs of the connection that no PINGRESP has answered, oldest first. -/
def outstanding : List Ping := Fifo.outstanding (log.sentOn connection) (log.answersOn connection)

/-- What fires if each answer belongs to the oldest PINGREQ without one. -/
def completed : List (Notifier × Completion Nat) :=
  (Fifo.matched (log.sentOn connection) (log.answersOn connection)).filterMap fun (ping, pong) =>
    ping.notifier.map (·, .complete (pong.receivedAt - ping.sentAt))

/-- What fires if the connection ends now. -/
def cancelled : List (Notifier × Completion Nat) :=
  (log.outstanding connection).filterMap fun ping =>
    ping.notifier.map (·, .cancel "Client disconnected")

def send (pings : List Ping) : PingLog := { log with sent := log.sent ++ pings }

def answer (pong : Pong) : PingLog := { log with answers := log.answers ++ [pong] }

/-- The PINGREQs among packets handed to the network now. -/
def noteSent (now : Nat) (emissions : List Emission) : PingLog :=
  log.send (emissions.filterMap fun emission =>
    emission.ping?.map (⟨emission.connection, now, ·⟩))

/-- A PINGRESP is an answer if a PINGREQ of its connection has none. -/
def noteAnswer (now : Nat) : PingLog :=
  match log.outstanding connection with
  | [] => log
  | _ :: _ => log.answer ⟨connection, now⟩

/-- What the observer notes at a step: packets sent, packets received, the clock. -/
def note (world : World) (event : Event) (next : World) (log : PingLog) : PingLog :=
  let log := log.noteSent world.now (next.emissions.drop world.emissions.length)
  match event with
  | .incoming .pingResp => log.noteAnswer world.connections world.now
  | _ => log

end PingLog

def Firing.pingRecord? : Firing → Option (Notifier × Completion Nat)
  | .ping notifier completion => some (notifier, completion)
  | _ => none

namespace World

/-- The pings that fired on a connection, in order. -/
def pingRecords (world : World) (connection : Nat) : List (Notifier × Completion Nat) :=
  (world.fired.filter fun record => record.connection == connection).filterMap
    (·.firing.pingRecord?)

/-- Whether the connection with this number is up. -/
def isLive (world : World) (connection : Nat) : Bool :=
  world.session.isConnected && connection == world.connections

theorem SameConnection.isLive {before after : World} (same : SameConnection before after) :
    after.isLive = before.isLive := by
  funext connection
  rw [World.isLive, World.isLive, same.isConnected, same.connections]

variable {world next : World} {emissions : List Emission} {fired : List Fired}

theorem Adds.noteSent (adds : Adds world next emissions fired) (now : Nat) (log : PingLog) :
    log.noteSent now (next.emissions.drop world.emissions.length) = log.noteSent now emissions := by
  obtain ⟨added, same, rfl⟩ := adds.emissions
  rw [same, List.drop_left]
  simp only [PingLog.noteSent, List.filterMap_filter]
  congr 3
  funext emission
  cases emission.ping? <;> simp

theorem Adds.pingRecords (adds : Adds world next emissions fired) (connection : Nat) :
    next.pingRecords connection = world.pingRecords connection ++
      (fired.filter fun record => record.connection == connection).filterMap
        (·.firing.pingRecord?) := by
  obtain ⟨added, same, rfl⟩ := adds.fired
  rw [World.pingRecords, World.pingRecords, same, List.filter_append, List.filterMap_append]
  congr 1
  rw [List.filter_filter, List.filterMap_filter, List.filterMap_filter]
  congr 1
  funext record
  obtain ⟨firing, event, number, interval⟩ := record
  cases firing with
  | ping notifier completion => simp [Firing.ping?]
  | _ => simp [Firing.pingRecord?]

/-- Pings of one connection that fire together. -/
theorem pingRecords_together (notifiers : List Notifier) (completion : Completion Nat)
    (event : Event) (number : Nat) (interval : SessionExpiryInterval) (connection : Nat) :
    ((notifiers.map fun notifier =>
        (⟨.ping notifier completion, event, number, interval⟩ : Fired)).filter
          fun record => record.connection == connection).filterMap (·.firing.pingRecord?) =
      if connection = number then notifiers.map (·, completion) else [] := by
  by_cases here : connection = number
  · rw [List.filter_eq_self.mpr (by simp [here]), List.filterMap_map, if_pos here]
    exact congrFun List.filterMap_eq_map' notifiers
  · rw [List.filter_eq_nil_iff.mpr (by simp [Ne.symm here]), if_neg here]
    rfl

end World

namespace PingLog

@[simp] theorem noteSent_nil (log : PingLog) (now : Nat) : log.noteSent now [] = log := by
  simp [noteSent, send]

theorem noteSent_auth (log : PingLog) (now connection : Nat) (packet : Packet)
    (request : ReauthRequest) :
    log.noteSent now [⟨connection, packet, some (.reauthRequest request)⟩] = log := by
  simp [noteSent, send, Emission.ping?]

theorem noteSent_ping (log : PingLog) (now connection : Nat) (notifier : Option Notifier) :
    log.noteSent now [⟨connection, .pingReq, some (.pingReq notifier)⟩] =
      log.send [⟨connection, now, notifier⟩] := rfl

section Connections

variable (log : PingLog) {connection : Nat}

theorem sentOn_here (ping : Ping) :
    (log.send [ping]).sentOn ping.connection = log.sentOn ping.connection ++ [ping] := by
  simp [sentOn, send]

theorem sentOn_other (ping : Ping) (other : connection ≠ ping.connection) :
    (log.send [ping]).sentOn connection = log.sentOn connection := by
  simp [sentOn, send, other.symm]

theorem answersOn_here (pong : Pong) :
    (log.answer pong).answersOn pong.connection = log.answersOn pong.connection ++ [pong] := by
  simp [answersOn, answer]

theorem answersOn_other (pong : Pong) (other : connection ≠ pong.connection) :
    (log.answer pong).answersOn connection = log.answersOn connection := by
  simp [answersOn, answer, other.symm]

variable {log}

/-- What the observer expects of a connection depends on what happened on it. -/
theorem expected_congr {other : PingLog} (sent : other.sentOn connection = log.sentOn connection)
    (answers : other.answersOn connection = log.answersOn connection) :
    other.outstanding connection = log.outstanding connection ∧
      other.completed connection = log.completed connection ∧
      other.cancelled connection = log.cancelled connection := by
  simp only [cancelled, completed, outstanding, sent, answers, and_self]

theorem expected_send (ping : Ping)
    (served : (log.answersOn ping.connection).length ≤ (log.sentOn ping.connection).length) :
    (log.send [ping]).outstanding ping.connection = log.outstanding ping.connection ++ [ping] ∧
      (log.send [ping]).completed ping.connection = log.completed ping.connection := by
  have answers : (log.send [ping]).answersOn ping.connection = log.answersOn ping.connection := rfl
  simp only [outstanding, completed, sentOn_here, answers, Fifo.outstanding_request served,
    Fifo.matched_request served, and_self]

theorem expected_answer (pong : Pong) {oldest : Ping} {rest : List Ping}
    (waiting : log.outstanding pong.connection = oldest :: rest) :
    (log.answer pong).outstanding pong.connection = rest ∧
      (log.answer pong).completed pong.connection = log.completed pong.connection ++
        oldest.notifier.toList.map (·, .complete (pong.receivedAt - oldest.sentAt)) := by
  have sent : (log.answer pong).sentOn pong.connection = log.sentOn pong.connection := rfl
  constructor
  · rw [outstanding, answersOn_here, sent, Fifo.outstanding_answer]
    exact congrArg List.tail waiting
  · rw [completed, answersOn_here, sent, Fifo.matched_answer waiting, List.filterMap_append]
    congr 1
    obtain ⟨number, sentAt, notifier⟩ := oldest
    cases notifier <;> rfl

/-- The notifiers that have fired on a connection, or will when it ends, are those sent. -/
theorem expected_notifiers (log : PingLog) (connection : Nat) :
    (log.completed connection ++ log.cancelled connection).map Prod.fst =
      (log.sentOn connection).filterMap (·.notifier) := by
  have all := Fifo.matched_outstanding (log.sentOn connection) (log.answersOn connection)
  rw [← all, List.filterMap_append, List.filterMap_map, List.map_append]
  congr 1
  · rw [completed, List.map_filterMap]
    congr 1
    funext entry
    simp [Function.comp_def]
  · rw [cancelled, List.map_filterMap]
    congr 1
    funext ping
    simp [Function.comp_def]

/-- A notifier belongs to one PINGREQ. -/
theorem ping_unique {pings : List Ping} (distinct : (pings.filterMap (·.notifier)).Nodup)
    {first second : Ping} {notifier : Notifier} (left : first ∈ pings) (right : second ∈ pings)
    (named : first.notifier = some notifier) (same : second.notifier = some notifier) :
    first = second := by
  induction pings with
  | nil => cases left
  | cons ping pings ih =>
    have elsewhere : ping.notifier = some notifier → notifier ∉ pings.filterMap (·.notifier) := by
      intro here
      rw [List.filterMap_cons_some here] at distinct
      exact (List.nodup_cons.mp distinct).1
    have mem : ∀ {other : Ping}, other ∈ pings → other.notifier = some notifier →
        notifier ∈ pings.filterMap (·.notifier) :=
      fun member here => List.mem_filterMap.mpr ⟨_, member, here⟩
    rcases List.mem_cons.mp left with rfl | earlier <;> rcases List.mem_cons.mp right with rfl | later
    · rfl
    · exact absurd (mem later same) (elsewhere named)
    · exact absurd (mem earlier named) (elsewhere same)
    · refine ih (distinct.sublist ?_) earlier later
      exact (List.sublist_cons_self ping pings).filterMap _

end Connections

end PingLog

/-- The observer's log describes the world. -/
structure PingsTracked (world : World) (log : PingLog) : Prop where
  known : ∀ ping ∈ log.sent, ping.connection ≤ world.connections
  served : ∀ connection, (log.answersOn connection).length ≤ (log.sentOn connection).length
  queue : world.session.isConnected = true → world.session.inflight.pingreq =
    (log.outstanding world.connections).map fun ping => (ping.sentAt, ping.notifier)
  idle : world.session.isConnected = false → world.session.inflight.pingreq = []
  records : ∀ connection, world.pingRecords connection = log.completed connection ++
    if world.isLive connection then [] else log.cancelled connection
  distinct : (log.sent.filterMap (·.notifier) ++ world.session.ch.pingRx).Nodup
  below : ∀ notifier ∈ log.sent.filterMap (·.notifier) ++ world.session.ch.pingRx,
    notifier < world.fresh

namespace PingsTracked

variable {world next : World} {log : PingLog}

theorem initial (maxPkid : PacketIdentifier) : PingsTracked (.new maxPkid) {} where
  known := by simp
  served _ := Nat.le_refl _
  queue live := by cases live
  idle _ := rfl
  records _ := by simp [World.pingRecords, World.new, PingLog.completed, PingLog.cancelled,
    PingLog.outstanding, PingLog.sentOn, PingLog.answersOn, Fifo.matched, Fifo.outstanding]
  distinct := List.nodup_nil
  below := by simp [World.new, Session.new]

/-- A step that neither sends a PINGREQ nor ends one. -/
theorem carry (tracked : PingsTracked world log)
    (pingreq : next.session.inflight.pingreq = world.session.inflight.pingreq)
    (same : World.SameConnection world next)
    (records : ∀ connection, next.pingRecords connection = world.pingRecords connection)
    (distinct : (log.sent.filterMap (·.notifier) ++ next.session.ch.pingRx).Nodup)
    (below : ∀ notifier ∈ log.sent.filterMap (·.notifier) ++ next.session.ch.pingRx,
      notifier < next.fresh) : PingsTracked next log where
  known := same.connections ▸ tracked.known
  served := tracked.served
  queue live := by
    rw [pingreq, same.connections]
    exact tracked.queue (same.isConnected ▸ live)
  idle dead := by
    rw [pingreq]
    exact tracked.idle (same.isConnected ▸ dead)
  records connection := by
    rw [records, tracked.records, same.isLive]
  distinct := distinct
  below := below

theorem quiet (tracked : PingsTracked world log)
    (pingRx : next.session.ch.pingRx = world.session.ch.pingRx)
    (pingreq : next.session.inflight.pingreq = world.session.inflight.pingreq)
    (same : World.SameConnection world next) (fresh : world.fresh ≤ next.fresh)
    (records : ∀ connection, next.pingRecords connection = world.pingRecords connection) :
    PingsTracked next log := by
  refine tracked.carry pingreq same records (pingRx ▸ tracked.distinct) ?_
  intro notifier member
  exact Nat.lt_of_lt_of_le (tracked.below notifier (pingRx ▸ member)) fresh

theorem requestPing (tracked : PingsTracked world log)
    (pingRx : next.session.ch.pingRx = world.session.ch.pingRx ++ [world.fresh])
    (pingreq : next.session.inflight.pingreq = world.session.inflight.pingreq)
    (same : World.SameConnection world next) (fresh : next.fresh = world.fresh + 1)
    (records : ∀ connection, next.pingRecords connection = world.pingRecords connection) :
    PingsTracked next log := by
  refine tracked.carry pingreq same records ?_ ?_ <;> rw [pingRx, ← List.append_assoc]
  · refine List.nodup_append.mpr ⟨tracked.distinct, List.nodup_singleton _, ?_⟩
    intro notifier old other new
    rw [List.mem_singleton.mp new]
    exact Nat.ne_of_lt (tracked.below notifier old)
  · intro notifier member
    rw [fresh]
    rcases List.mem_append.mp member with old | new
    · exact Nat.lt_succ_of_lt (tracked.below notifier old)
    · rw [List.mem_singleton.mp new]
      exact Nat.lt_succ_self _

/-- Nothing is outstanding on a connection that is yet to be made. -/
theorem unused (tracked : PingsTracked world log) {connection : Nat}
    (later : world.connections < connection) : log.outstanding connection = [] := by
  have sent : log.sentOn connection = [] := by
    rw [PingLog.sentOn, List.filter_eq_nil_iff]
    intro ping member
    have known := tracked.known ping member
    simp only [beq_iff_eq]
    omega
  rw [PingLog.outstanding, Fifo.outstanding, sent, List.drop_nil]

theorem established (tracked : PingsTracked world log)
    (frame : Session.ExchangeFrame world.session next.session)
    (before : world.session.isConnected = false) (after : next.session.isConnected = true)
    (connections : next.connections = world.connections + 1) (fresh : next.fresh = world.fresh)
    (records : ∀ connection, next.pingRecords connection = world.pingRecords connection) :
    PingsTracked next log := by
  have unused : log.outstanding next.connections = [] :=
    tracked.unused (connections ▸ Nat.lt_succ_self _)
  refine ⟨?_, tracked.served, ?_, ?_, ?_, frame.pingRx ▸ tracked.distinct,
    frame.pingRx ▸ fresh ▸ tracked.below⟩
  · intro ping member
    exact connections ▸ Nat.le_succ_of_le (tracked.known ping member)
  · intro _
    rw [frame.pingreq, tracked.idle before, unused]
    rfl
  · intro dead
    rw [after] at dead
    cases dead
  · intro connection
    have dead : world.isLive connection = false := by simp [World.isLive, before]
    rw [records, tracked.records, dead]
    by_cases new : connection = next.connections
    · have none : log.cancelled connection = [] := by
        rw [PingLog.cancelled, new, unused]
        rfl
      simp [none]
    · have still : next.isLive connection = false := by simp [World.isLive, new]
      rw [still]

theorem sendPing (tracked : PingsTracked world log) {notifier : Option Notifier}
    (live : world.session.isConnected = true)
    (pingRx : world.session.ch.pingRx = notifier.toList ++ next.session.ch.pingRx)
    (pingreq : next.session.inflight.pingreq =
      world.session.inflight.pingreq ++ [(world.now, notifier)])
    (same : World.SameConnection world next) (fresh : next.fresh = world.fresh)
    (records : ∀ connection, next.pingRecords connection = world.pingRecords connection) :
    PingsTracked next (log.send [⟨world.connections, world.now, notifier⟩]) := by
  have notifiers : (log.send [⟨world.connections, world.now, notifier⟩]).sent.filterMap
      (·.notifier) ++ next.session.ch.pingRx =
      log.sent.filterMap (·.notifier) ++ world.session.ch.pingRx := by
    rw [pingRx, PingLog.send, List.filterMap_append, List.append_assoc]
    cases notifier <;> rfl
  obtain ⟨outstanding, completed⟩ := PingLog.expected_send
    ⟨world.connections, world.now, notifier⟩ (tracked.served world.connections)
  refine ⟨?_, ?_, ?_, ?_, ?_, notifiers ▸ tracked.distinct, notifiers ▸ fresh ▸ tracked.below⟩
  · intro ping member
    rw [same.connections]
    rcases List.mem_append.mp member with old | new
    · exact tracked.known ping old
    · rw [List.mem_singleton.mp new]
  · intro connection
    refine Nat.le_trans (tracked.served connection) ?_
    simp only [PingLog.sentOn, PingLog.send, List.filter_append, List.length_append]
    exact Nat.le_add_right _ _
  · intro _
    rw [pingreq, tracked.queue live, same.connections, outstanding, List.map_append]
    rfl
  · intro dead
    rw [same.isConnected, live] at dead
    cases dead
  · intro connection
    rw [records, tracked.records, same.isLive]
    by_cases here : connection = world.connections
    · have up : world.isLive connection = true := by simp [World.isLive, live, here]
      rw [up, here, completed]
      rfl
    · have sent := log.sentOn_other ⟨world.connections, world.now, notifier⟩ here
      obtain ⟨-, completed, cancelled⟩ := PingLog.expected_congr sent rfl
      rw [completed, cancelled]

theorem pong (tracked : PingsTracked world log) (live : world.session.isConnected = true)
    {oldest : Ping} {rest : List Ping}
    (waiting : log.outstanding world.connections = oldest :: rest)
    (pingRx : next.session.ch.pingRx = world.session.ch.pingRx)
    (pingreq : next.session.inflight.pingreq = world.session.inflight.pingreq.tail)
    (same : World.SameConnection world next) (fresh : next.fresh = world.fresh)
    (records : ∀ connection, next.pingRecords connection = world.pingRecords connection ++
      if connection = world.connections then
        oldest.notifier.toList.map (·, .complete (world.now - oldest.sentAt))
      else []) :
    PingsTracked next (log.answer ⟨world.connections, world.now⟩) := by
  obtain ⟨outstanding, completed⟩ :=
    PingLog.expected_answer ⟨world.connections, world.now⟩ waiting
  refine ⟨same.connections ▸ tracked.known, ?_, ?_, ?_, ?_, pingRx ▸ tracked.distinct,
    pingRx ▸ fresh ▸ tracked.below⟩
  · intro connection
    by_cases here : connection = world.connections
    · rw [here, log.answersOn_here ⟨world.connections, world.now⟩]
      exact Fifo.served_answer waiting _
    · rw [log.answersOn_other ⟨world.connections, world.now⟩ here]
      exact tracked.served connection
  · intro _
    rw [pingreq, tracked.queue live, same.connections, outstanding, waiting]
    rfl
  · intro dead
    rw [same.isConnected, live] at dead
    cases dead
  · intro connection
    rw [records, tracked.records, same.isLive]
    by_cases here : connection = world.connections
    · have up : world.isLive connection = true := by simp [World.isLive, live, here]
      rw [up, here, completed]
      simp
    · have answers := log.answersOn_other ⟨world.connections, world.now⟩ here
      have sent : (log.answer ⟨world.connections, world.now⟩).sentOn connection =
          log.sentOn connection := rfl
      obtain ⟨-, completed, cancelled⟩ := PingLog.expected_congr sent answers
      simp [here, completed, cancelled]

theorem ended (tracked : PingsTracked world log) (live : world.session.isConnected = true)
    (after : next.session.isConnected = false)
    (pingRx : next.session.ch.pingRx = world.session.ch.pingRx)
    (pingreq : next.session.inflight.pingreq = [])
    (connections : next.connections = world.connections) (fresh : next.fresh = world.fresh)
    (records : ∀ connection, next.pingRecords connection = world.pingRecords connection ++
      if connection = world.connections then
        (world.session.inflight.pingreq.filterMap Prod.snd).map (·, .cancel "Client disconnected")
      else []) : PingsTracked next log := by
  refine ⟨connections ▸ tracked.known, tracked.served, ?_, fun _ => pingreq, ?_,
    pingRx ▸ tracked.distinct, pingRx ▸ fresh ▸ tracked.below⟩
  · intro still
    rw [after] at still
    cases still
  · intro connection
    have dead : next.isLive connection = false := by simp [World.isLive, after]
    rw [records, tracked.records, dead]
    by_cases here : connection = world.connections
    · have up : world.isLive connection = true := by simp [World.isLive, live, here]
      rw [up, here, tracked.queue live, PingLog.cancelled]
      simp [List.filterMap_map, List.map_filterMap]
    · have down : world.isLive connection = false := by simp [World.isLive, here]
      simp [down, here]

/-- The log of the observer describes the world after every step. -/
theorem step {event : Event} (tracked : PingsTracked world log)
    (stepped : world.step event = .ok next) :
    PingsTracked next (log.note world event next) := by
  have plain : ∀ {emissions fired}, World.Adds world next emissions fired →
      event ≠ .incoming .pingResp →
      log.note world event next = log.noteSent world.now emissions := by
    intro emissions fired adds other
    unfold PingLog.note
    rw [adds.noteSent]
    split
    · exact absurd rfl other
    · rfl
  have silent : ∀ {emissions}, World.Adds world next emissions [] →
      ∀ connection, next.pingRecords connection = world.pingRecords connection := by
    intro emissions adds connection
    simpa using adds.pingRecords connection
  cases World.step_exchange stepped with
  | idle event next frame same fresh adds other =>
    rw [plain adds other, PingLog.noteSent_nil]
    exact tracked.quiet frame.pingRx frame.pingreq same fresh (silent adds)
  | established event next frame before after connections fresh adds other =>
    rw [plain adds other, PingLog.noteSent_nil]
    exact tracked.established frame before after connections fresh (silent adds)
  | requestAuth event request next named authRx auth pingRx pingreq same fresh adds =>
    rw [plain adds (by simp), PingLog.noteSent_nil]
    exact tracked.quiet pingRx pingreq same (fresh ▸ Nat.le_succ _) (silent adds)
  | requestPing event next authRx auth pingRx pingreq same fresh adds =>
    rw [plain adds (by simp), PingLog.noteSent_nil]
    exact tracked.requestPing pingRx pingreq same fresh (silent adds)
  | sendAuth polls request authentication next live head auth pingRx pingreq same fresh adds =>
    rw [plain adds (by simp), PingLog.noteSent_auth]
    exact tracked.quiet pingRx pingreq same (Nat.le_of_eq fresh.symm) (silent adds)
  | sendPing polls notifier next live authRx auth pingRx pingreq same fresh adds =>
    rw [plain adds (by simp), PingLog.noteSent_ping]
    exact tracked.sendPing live pingRx pingreq same fresh (silent adds)
  | answerAuth auth method notifier result next live held answer authRx cleared pingRx pingreq same
      fresh adds =>
    rw [plain adds (by simp), PingLog.noteSent_nil]
    refine tracked.quiet pingRx pingreq same (Nat.le_of_eq fresh.symm) fun connection => ?_
    rw [adds.pingRecords]
    simp [List.filterMap_filter, Firing.pingRecord?]
  | pong next live authRx auth pingRx pingreq same fresh unsolicited adds =>
    have noted : log.note world (.incoming .pingResp) next =
        log.noteAnswer world.connections world.now := by
      rw [PingLog.note, adds.noteSent, PingLog.noteSent_nil]
    rw [noted, PingLog.noteAnswer]
    have queue := tracked.queue live
    cases waiting : log.outstanding world.connections with
    | nil =>
      rw [waiting] at queue
      rw [unsolicited queue]
      exact tracked
    | cons oldest rest =>
      refine tracked.pong live waiting pingRx pingreq same fresh fun connection => ?_
      rw [adds.pingRecords, queue, waiting, ← World.pingRecords_together _ _
        (.incoming .pingResp) world.connections world.session.expiryInterval connection]
      simp
  | ended disconnection next live after authRx cleared pingRx pingreq connections fresh adds =>
    rw [plain adds (by simp), PingLog.noteSent_nil]
    refine tracked.ended live after pingRx pingreq connections fresh fun connection => ?_
    rw [adds.pingRecords, List.filter_append, List.filterMap_append,
      World.pingRecords_together _ _ (.disconnected disconnection)]
    simp [List.filterMap_filter, List.filterMap_map, Firing.pingRecord?]

end PingsTracked

/-- The pings of every connection as the observer expects them: each answer completes the
oldest PINGREQ without one, with the time since that PINGREQ was sent, and the end of the
connection cancels the rest. -/
structure PingsInOrder (world : World) (log : PingLog) : Prop where
  records : ∀ connection, world.pingRecords connection = log.completed connection ++
    if world.isLive connection then [] else log.cancelled connection
  queue : world.session.isConnected = true → world.session.inflight.pingreq =
    (log.outstanding world.connections).map fun ping => (ping.sentAt, ping.notifier)
  /-- A PINGRESP that answers nothing changes nothing. -/
  unsolicited : ∀ next, log.outstanding world.connections = [] →
    world.step (.incoming .pingResp) = .ok next →
    next = world ∧ log.note world (.incoming .pingResp) next = log
  /-- Each notifier is sent with one PINGREQ, and fires once when its connection has ended. -/
  distinct : (log.sent.filterMap (·.notifier)).Nodup
  once : ∀ connection, world.isLive connection = false →
    (world.pingRecords connection).map Prod.fst = (log.sentOn connection).filterMap (·.notifier)
  /-- A ping fires on the connection of its PINGREQ. -/
  own : ∀ record ∈ world.fired, ∀ notifier, record.firing.ping? = some notifier →
    ∀ ping ∈ log.sent, ping.notifier = some notifier → ping.connection = record.connection

theorem PingsTracked.inOrder {world : World} {log : PingLog} (tracked : PingsTracked world log) :
    PingsInOrder world log := by
  have distinct := tracked.distinct.sublist (List.sublist_append_left _ _)
  refine ⟨tracked.records, tracked.queue, ?_, distinct, ?_, ?_⟩
  · intro next none stepped
    cases World.step_exchange stepped with
    | idle event next frame same fresh adds other => exact absurd rfl other
    | established event next frame before after connections fresh adds other =>
      exact absurd rfl other
    | pong next live authRx auth pingRx pingreq same fresh unsolicited adds =>
      have queue := tracked.queue live
      rw [none] at queue
      obtain rfl := unsolicited queue
      refine ⟨rfl, ?_⟩
      rw [PingLog.note, adds.noteSent, PingLog.noteSent_nil]
      simp only [PingLog.noteAnswer, none]
  · intro connection dead
    rw [tracked.records, dead, ← log.expected_notifiers connection]
    rfl
  · intro record member notifier fires ping sent named
    have listed : notifier ∈ (world.pingRecords record.connection).map Prod.fst := by
      obtain ⟨completion, held⟩ : ∃ completion,
          record.firing.pingRecord? = some (notifier, completion) := by
        cases firing : record.firing <;> simp_all [Firing.ping?, Firing.pingRecord?]
      refine List.mem_map.mpr ⟨(notifier, completion), List.mem_filterMap.mpr ⟨record, ?_, held⟩, rfl⟩
      exact List.mem_filter.mpr ⟨member, beq_self_eq_true _⟩
    have onConnection : notifier ∈ (log.sentOn record.connection).filterMap (·.notifier) := by
      rw [← log.expected_notifiers, List.map_append]
      rw [tracked.records, List.map_append] at listed
      rcases List.mem_append.mp listed with answered | ended
      · exact List.mem_append_left _ answered
      · refine List.mem_append_right _ ?_
        split at ended
        · cases ended
        · exact ended
    obtain ⟨other, onIt, same⟩ := List.mem_filterMap.mp onConnection
    obtain ⟨recorded, number⟩ := List.mem_filter.mp onIt
    obtain rfl := PingLog.ping_unique distinct sent recorded named same
    exact beq_iff_eq.mp number

/-- Every run matches the answers to the PINGREQs in order, as an observer of its packets and
its clock sees it. -/
theorem pings_inOrder (maxPkid : PacketIdentifier) (events : List Event) (final : World)
    (ran : World.run (.new maxPkid) events = .ok final) :
    PingsInOrder final
      (Transition.observe World.step PingLog.note (.new maxPkid) {} events) := by
  refine (Transition.observe_always PingsTracked ?_ (.initial maxPkid) ran).inOrder
  intro world log event next tracked stepped
  exact tracked.step stepped

/-- A ping of the application and one of the timer, an answer after a second, and the end of
the connection. -/
def pingedTwice : List Event :=
  [.connack ⟨.success false, {}⟩ (.duration ⟨1, PacketIdentifier.one.nonzero⟩) none .infinite,
    .app .ping, .poll [{}], .elapse 1000000000, .poll [{}], .incoming .pingResp, .app .ping,
    .poll [{}], .disconnected .transport,
    .connack ⟨.success false, {}⟩ .infinite none .infinite, .incoming .pingResp]

theorem pings_inOrder_pingedTwice :
    ∃ final, World.run (.new .one) pingedTwice = .ok final ∧
      final.pingRecords 1 =
        [(0, .complete 1000000000), (1, .cancel "Client disconnected")] := by
  have ran : ∃ final, World.run (.new .one) pingedTwice = .ok final ∧
      final.isLive 1 = false := ⟨_, rfl, rfl⟩
  obtain ⟨final, ran, dead⟩ := ran
  have ordered := pings_inOrder .one pingedTwice final ran
  have expected :
      (Transition.observe World.step PingLog.note (.new .one) {} pingedTwice).completed 1 ++
        (Transition.observe World.step PingLog.note (.new .one) {} pingedTwice).cancelled 1 =
      [(0, .complete 1000000000), (1, .cancel "Client disconnected")] := by decide
  refine ⟨final, ran, ?_⟩
  rw [ordered.records, dead]
  exact expected

end MqttClient.Client
