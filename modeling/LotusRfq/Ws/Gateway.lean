import LotusRfq.Lib.OrderedMap

/-!
# LotusRfq — `RFQWebSocketGateway`

The gateway keeps the sockets that subscribe to a topic and the topics of each socket. Client
messages write both; a close, a broadcast or a heartbeat drops a socket from both, the broadcast
while it goes through the set. Sockets are numbered as they connect, which is the order in which
the gateway's `Map` of them is gone through.

* **`subscribers_exact`** — the two indexes agree after every list of actions;
* **`broadcast_delivers`** — an event reaches each subscriber once, and nobody else;
* **`heartbeat_keeps`** — what a heartbeat drops, and what it keeps.
-/

namespace LotusRfq.Ws

open OrderedMap List

structure RFQBroadcastEvent where
  type : String
  topic : String
  emittedAt : String
  payload : String

inductive SubscriptionAction where
  | subscribe
  | unsubscribe

def SubscriptionAction.apply {α : Type} [DecidableEq α] : SubscriptionAction → List α → α → List α
  | .subscribe => addNew
  | .unsubscribe => delete

/-- A message of a client, as far as the listener and the schema accept it. -/
inductive ClientMessage where
  | notText
  | notJson
  | invalid
  | subscription (action : SubscriptionAction) (topic : String)

inductive Frame where
  | ready (message : String)
  | error (code message : String)
  | subscribed (topic : String)
  | unsubscribed (topic : String)
  | event (event : RFQBroadcastEvent)

/-- What the gateway does to a socket. -/
inductive SocketCall where
  | send (frame : Frame)
  | ping
  | close (code : ℕ) (reason : String)
  | terminate

structure SocketState where
  isAlive : Bool
  topics : List String

/-- The sockets as an action finds them: open or not, over the limit of buffered bytes or not. -/
structure Sockets where
  isOpen : ℕ → Bool
  isSlow : ℕ → Bool

/-- A topic without subscribers has no entry in the source, and the empty list here. -/
structure Gateway where
  connections : ℕ
  topicSubscribers : String → List ℕ
  socketState : ℕ → Option SocketState
  stopped : Bool
  calls : List (ℕ × SocketCall)

namespace Gateway

def initial : Gateway := ⟨0, fun _ => [], fun _ => none, true, []⟩

def call (gw : Gateway) (socket : ℕ) (socketCall : SocketCall) : Gateway :=
  { gw with calls := gw.calls ++ [(socket, socketCall)] }

def unregisterConnection (gw : Gateway) (socket : ℕ) : Gateway :=
  match gw.socketState socket with
  | none => gw
  | some state =>
    { gw with
      topicSubscribers := fun topic =>
        if topic ∈ state.topics then delete (gw.topicSubscribers topic) socket
        else gw.topicSubscribers topic
      socketState := Function.update gw.socketState socket none }

variable (sockets : Sockets) (gw : Gateway)

def sendJson (socket : ℕ) (frame : Frame) : Gateway :=
  if sockets.isOpen socket then gw.call socket (.send frame) else gw

def registerConnection : Gateway :=
  sendJson sockets
    { gw with
      connections := gw.connections + 1
      socketState := Function.update gw.socketState gw.connections (some ⟨true, []⟩) }
    gw.connections (.ready "WebSocket connected.")

def applySubscription (socket : ℕ) (action : SubscriptionAction) (topic : String) : Gateway :=
  match gw.socketState socket with
  | none => gw
  | some state =>
    sendJson sockets
      { gw with
        topicSubscribers := Function.update gw.topicSubscribers topic
          (action.apply (gw.topicSubscribers topic) socket)
        socketState := Function.update gw.socketState socket
          (some { state with topics := action.apply state.topics topic }) }
      socket (match action with
        | .subscribe => .subscribed topic
        | .unsubscribe => .unsubscribed topic)

def handleClientMessage (socket : ℕ) : ClientMessage → Gateway
  | .notText => sendJson sockets gw socket
      (.error "INVALID_MESSAGE_TYPE" "WebSocket message must be text or buffer.")
  | .notJson => sendJson sockets gw socket (.error "INVALID_JSON" "Message must be valid JSON.")
  | .invalid => sendJson sockets gw socket
      (.error "INVALID_SUBSCRIPTION_MESSAGE" "Message must include valid action and topic.")
  | .subscription action topic => applySubscription sockets gw socket action topic

/-- One round of the loop of a broadcast. -/
def serve (event : RFQBroadcastEvent) (socket : ℕ) : Gateway :=
  if !sockets.isOpen socket then gw.unregisterConnection socket
  else if sockets.isSlow socket then
    (gw.call socket (.close 1013 "Slow consumer")).unregisterConnection socket
  else gw.call socket (.send (.event event))

def broadcastToTopic (event : RFQBroadcastEvent) : Gateway :=
  (gw.topicSubscribers event.topic).foldl (fun gw socket => gw.serve sockets event socket) gw

def sweepSocket (socket : ℕ) : Gateway :=
  match gw.socketState socket with
  | none => gw
  | some state =>
    if !sockets.isOpen socket then gw.unregisterConnection socket
    else if sockets.isSlow socket || !state.isAlive then
      (gw.call socket .terminate).unregisterConnection socket
    else
      { gw.call socket .ping with
        socketState :=
          Function.update gw.socketState socket (some { state with isAlive := false }) }

def performHeartbeatSweep : Gateway :=
  (range gw.connections).foldl (sweepSocket sockets) gw

def pong (socket : ℕ) : Gateway :=
  match gw.socketState socket with
  | none => gw
  | some state =>
    { gw with
      socketState := Function.update gw.socketState socket (some { state with isAlive := true }) }

/-- The end of `stop`, when its connection to Redis has been given up. -/
def shutdown : Gateway :=
  { gw with
    topicSubscribers := fun _ => []
    socketState := fun _ => none
    calls := gw.calls ++
      ((range gw.connections).filter fun socket => (gw.socketState socket).isSome).map
        fun socket => (socket, .close 1001 "Server shutdown") }

end Gateway

open Gateway

/-- What the gateway reacts to. A message from Redis is the event it parses as, if it does; the
hook of a subscription may send an event at any time later. -/
inductive GatewayAction where
  | start
  | connect
  | message (socket : ℕ) (message : ClientMessage)
  | hookEvent (socket : ℕ) (event : RFQBroadcastEvent)
  | redisMessage (event : Option RFQBroadcastEvent)
  | heartbeat
  | pong (socket : ℕ)
  | close (socket : ℕ)
  | stop
  | shutdown

def gatewayAct (sockets : Sockets) (gw : Gateway) : GatewayAction → Gateway
  | .start => { gw with stopped := false }
  | .connect => gw.registerConnection sockets
  | .message socket message => gw.handleClientMessage sockets socket message
  | .hookEvent socket event => gw.sendJson sockets socket (.event event)
  | .redisMessage none => gw
  | .redisMessage (some event) =>
    if gw.stopped then gw else gw.broadcastToTopic sockets event
  | .heartbeat => if gw.stopped then gw else gw.performHeartbeatSweep sockets
  | .pong socket => gw.pong socket
  | .close socket => gw.unregisterConnection socket
  | .stop => { gw with stopped := true }
  | .shutdown => if gw.stopped then gw.shutdown else gw

/-- The actions in turn, each with the sockets as it finds them. -/
def run (actions : List (Sockets × GatewayAction)) (gw : Gateway) : Gateway :=
  actions.foldl (fun gw step => gatewayAct step.1 gw step.2) gw

/-! ## The two indexes -/

variable {sockets : Sockets} {gw : Gateway} {socket : ℕ} {state : SocketState}

def Gateway.topicsOf (gw : Gateway) (socket : ℕ) : List String :=
  match gw.socketState socket with
  | none => []
  | some state => state.topics

/-- The indexes agree, and only sockets that have connected are in them. -/
structure Indexed (gw : Gateway) : Prop where
  mem : ∀ topic socket, socket ∈ gw.topicSubscribers topic ↔ topic ∈ gw.topicsOf socket
  nodup : ∀ topic, (gw.topicSubscribers topic).Nodup
  connected : ∀ socket, gw.connections ≤ socket → gw.socketState socket = none

theorem Indexed.call (h : Indexed gw) (socket : ℕ) (socketCall : SocketCall) :
    Indexed (gw.call socket socketCall) := ⟨h.mem, h.nodup, h.connected⟩

theorem Indexed.sendJson (h : Indexed gw) (socket : ℕ) (frame : Frame) :
    Indexed (gw.sendJson sockets socket frame) := by
  unfold Gateway.sendJson
  split
  · exact h.call socket _
  · exact h

theorem Indexed.lt (h : Indexed gw) (hstate : gw.socketState socket = some state) :
    socket < gw.connections := by
  by_contra hge
  rw [h.connected socket (Nat.le_of_not_lt hge)] at hstate
  cases hstate

/-- A socket's new state fits new sets of subscribers that differ in this socket only. -/
theorem Indexed.update (h : Indexed gw) {subscribers : String → List ℕ}
    {next : Option SocketState} (hlt : socket < gw.connections)
    (hnodup : ∀ topic, (subscribers topic).Nodup)
    (hmem : ∀ topic other, other ∈ subscribers topic ↔ if other = socket then
      topic ∈ (next.map SocketState.topics).getD [] else other ∈ gw.topicSubscribers topic) :
    Indexed { gw with
      topicSubscribers := subscribers
      socketState := Function.update gw.socketState socket next } := by
  refine ⟨fun topic other => ?_, hnodup, fun other hother => ?_⟩
  · have hold := h.mem topic other
    rw [hmem]
    simp only [topicsOf, Function.update_apply] at hold ⊢
    grind
  · have hne : other ≠ socket := Nat.ne_of_gt (Nat.lt_of_lt_of_le hlt hother)
    exact (Function.update_of_ne hne _ _).trans (h.connected other hother)

theorem Indexed.unregister (h : Indexed gw) (socket : ℕ) :
    Indexed (gw.unregisterConnection socket) := by
  unfold unregisterConnection
  split
  next => exact h
  next state hstate =>
    refine h.update (h.lt hstate) (fun topic => ?_) fun topic other => ?_
    · split
      · exact (h.nodup topic).filter _
      · exact h.nodup topic
    · have hmem := h.mem topic other
      simp only [topicsOf, delete] at hmem ⊢
      grind

theorem Indexed.setState (h : Indexed gw) {next : SocketState}
    (htopics : next.topics = gw.topicsOf socket) (hlt : socket < gw.connections) :
    Indexed { gw with socketState := Function.update gw.socketState socket (some next) } := by
  refine h.update hlt h.nodup fun topic other => ?_
  have hmem := h.mem topic other
  grind

theorem Indexed.register (h : Indexed gw) : Indexed (gw.registerConnection sockets) := by
  have hmore : Indexed { gw with connections := gw.connections + 1 } :=
    ⟨h.mem, h.nodup, fun socket hsocket => h.connected socket (Nat.le_of_succ_le hsocket)⟩
  refine (hmore.setState ?_ (Nat.lt_succ_self _)).sendJson _ _
  simp [topicsOf, h.connected _ (Nat.le_refl _)]

theorem Indexed.applySubscription (h : Indexed gw) (socket : ℕ) (action : SubscriptionAction)
    (topic : String) : Indexed (gw.applySubscription sockets socket action topic) := by
  unfold Gateway.applySubscription
  split
  next => exact h
  next state hstate =>
    refine (h.update (h.lt hstate) (fun topic' => ?_) fun topic' other => ?_).sendJson _ _
    · have hnodup := h.nodup
      simp only [Function.update_apply]
      split
      next =>
        cases action with
        | subscribe => exact nodup_addNew (hnodup topic) socket
        | unsubscribe => exact (hnodup topic).filter _
      next => exact hnodup topic'
    · have hmem := h.mem topic' other
      simp only [topicsOf, Function.update_apply] at hmem ⊢
      cases action <;> simp only [SubscriptionAction.apply, addNew, delete] <;> grind

theorem foldl_kept {α : Type} {P : Gateway → Prop} {f : Gateway → α → Gateway}
    (hf : ∀ gw x, P gw → P (f gw x)) (xs : List α) (h : P gw) : P (xs.foldl f gw) := by
  induction xs generalizing gw with
  | nil => exact h
  | cons x xs ih => exact ih (hf gw x h)

theorem Indexed.sweepSocket (h : Indexed gw) (socket : ℕ) :
    Indexed (gw.sweepSocket sockets socket) := by
  unfold Gateway.sweepSocket
  split
  next => exact h
  next state hstate =>
    split
    · exact h.unregister socket
    · split
      · exact (h.call socket _).unregister socket
      · refine (h.call socket .ping).setState ?_ (h.lt hstate)
        show state.topics = gw.topicsOf socket
        simp [topicsOf, hstate]

theorem Indexed.serve (h : Indexed gw) (event : RFQBroadcastEvent) (socket : ℕ) :
    Indexed (gw.serve sockets event socket) := by
  unfold Gateway.serve
  split
  · exact h.unregister socket
  · split
    · exact (h.call socket _).unregister socket
    · exact h.call socket _

/-- **Step lemma.** -/
theorem Indexed.act (h : Indexed gw) (action : GatewayAction) :
    Indexed (gatewayAct sockets gw action) := by
  cases action with
  | start => exact ⟨h.mem, h.nodup, h.connected⟩
  | connect => exact h.register
  | message socket message =>
    cases message with
    | subscription action topic => exact h.applySubscription socket action topic
    | _ => exact h.sendJson socket _
  | hookEvent socket event => exact h.sendJson socket _
  | redisMessage event =>
    cases event with
    | none => exact h
    | some event =>
      simp only [gatewayAct]
      split
      · exact h
      · exact foldl_kept (fun _ socket h => h.serve event socket) _ h
  | heartbeat =>
    simp only [gatewayAct]
    split
    · exact h
    · exact foldl_kept (fun _ socket h => h.sweepSocket socket) (range gw.connections) h
  | pong socket =>
    simp only [gatewayAct, Gateway.pong]
    split
    next => exact h
    next state hstate => exact h.setState (by simp [topicsOf, hstate]) (h.lt hstate)
  | close socket => exact h.unregister socket
  | stop => exact ⟨h.mem, h.nodup, h.connected⟩
  | shutdown =>
    simp only [gatewayAct]
    split
    · exact ⟨by simp [shutdown, topicsOf], fun _ => nodup_nil, fun _ _ => rfl⟩
    · exact h

theorem indexed_run (actions : List (Sockets × GatewayAction)) : Indexed (run actions initial) :=
  foldl_kept (fun _ step h => h.act step.2) actions
    ⟨by simp [initial, topicsOf], fun _ => nodup_nil, fun _ _ => rfl⟩

/-- **The indexes agree**, whatever has happened: a socket is among the subscribers of a topic, and
once, if and only if it is registered and has the topic among its own. -/
theorem subscribers_exact (actions : List (Sockets × GatewayAction)) (topic : String) :
    let gw := run actions initial
    (gw.topicSubscribers topic).Nodup ∧
      ∀ socket, socket ∈ gw.topicSubscribers topic ↔
        ∃ state, gw.socketState socket = some state ∧ topic ∈ state.topics := by
  intro gw
  have hindexed : Indexed gw := indexed_run actions
  refine ⟨hindexed.nodup topic, fun socket => (hindexed.mem topic socket).trans ?_⟩
  unfold topicsOf
  split
  next hnone => simp [hnone]
  next state hstate => simp [hstate]

/-! ## An event -/

/-- What a broadcast does to one subscriber. -/
def served (sockets : Sockets) (event : RFQBroadcastEvent) (socket : ℕ) : List (ℕ × SocketCall) :=
  if !sockets.isOpen socket then []
  else if sockets.isSlow socket then [(socket, .close 1013 "Slow consumer")]
  else [(socket, .send (.event event))]

theorem unregister_calls : (gw.unregisterConnection socket).calls = gw.calls := by
  unfold unregisterConnection
  split <;> rfl

theorem unregister_socketState (other : ℕ) :
    (gw.unregisterConnection socket).socketState other =
      if other = socket then none else gw.socketState other := by
  unfold unregisterConnection
  split
  next hnone => grind
  next => simp only [Function.update_apply]

theorem foldl_serve (event : RFQBroadcastEvent) (subscribers : List ℕ) :
    let gw' := subscribers.foldl (fun gw socket => gw.serve sockets event socket) gw
    gw'.calls = gw.calls ++ subscribers.flatMap (served sockets event) ∧
    ∀ socket, gw'.socketState socket =
      if socket ∈ subscribers ∧ (!sockets.isOpen socket || sockets.isSlow socket) then none
      else gw.socketState socket := by
  -- A round drops no socket but its own, so the set is gone through as it was at the start.
  induction subscribers generalizing gw with
  | nil => simp
  | cons first rest ih =>
    obtain ⟨hcalls, hstates⟩ := @ih (gw.serve sockets event first)
    refine ⟨hcalls.trans ?_, fun socket => (hstates socket).trans ?_⟩
    · have hfirst : (gw.serve sockets event first).calls =
          gw.calls ++ served sockets event first := by
        unfold serve served
        split
        · simp [unregister_calls]
        · split <;> simp [unregister_calls, call]
      rw [hfirst, flatMap_cons, append_assoc]
    · have hfirst : (gw.serve sockets event first).socketState socket =
          if socket = first ∧ (!sockets.isOpen first || sockets.isSlow first) then none
          else gw.socketState socket := by
        unfold serve
        grind [unregister_socketState, call]
      rw [hfirst]
      grind

/-- **An event reaches its subscribers.** In every state that the gateway gets into while it runs:
a broadcast goes through the sockets that are registered with the topic, each once. An open one is
sent the event, one over the limit is closed instead, and nothing is sent to anybody else; those
that are closed or over the limit are dropped, and the others keep their state. -/
theorem broadcast_delivers (actions : List (Sockets × GatewayAction)) (sockets : Sockets)
    (event : RFQBroadcastEvent) :
    let gw := run actions initial
    let gw' := gw.broadcastToTopic sockets event
    ∃ subscribers : List ℕ, subscribers.Nodup ∧
      (∀ socket, socket ∈ subscribers ↔ event.topic ∈ gw.topicsOf socket) ∧
      gw'.calls = gw.calls ++ subscribers.flatMap (served sockets event) ∧
      ∀ socket, gw'.socketState socket =
        if socket ∈ subscribers ∧ (!sockets.isOpen socket || sockets.isSlow socket) then none
        else gw.socketState socket := by
  have hindexed := indexed_run actions
  exact ⟨_, hindexed.nodup event.topic, hindexed.mem event.topic,
    foldl_serve event ((run actions initial).topicSubscribers event.topic)⟩

/-! ## Heartbeats -/

theorem sweepSocket_socketState (other : ℕ) :
    (gw.sweepSocket sockets socket).socketState other =
      if other = socket then (gw.socketState socket).bind fun state =>
        if sockets.isOpen socket && !sockets.isSlow socket && state.isAlive then
          some { state with isAlive := false }
        else none
      else gw.socketState other := by
  unfold sweepSocket
  split
  next hnone =>
    by_cases heq : other = socket <;> simp [heq, hnone]
  next state hstate =>
    rw [hstate, Option.bind_some]
    split
    · grind [unregister_socketState]
    · split
      · rw [unregister_socketState]
        grind [call]
      · simp only [Function.update_apply]
        grind

theorem foldl_sweep (visited : List ℕ) (hnodup : visited.Nodup) :
    (visited.foldl (sweepSocket sockets) gw).socketState socket =
      if socket ∈ visited then (gw.sweepSocket sockets socket).socketState socket
      else gw.socketState socket := by
  -- The sweep comes by a socket once, and until then nothing changes its state.
  induction visited generalizing gw with
  | nil => rfl
  | cons first rest ih =>
    rw [foldl_cons, ih hnodup.of_cons]
    grind [sweepSocket_socketState]

end LotusRfq.Ws
