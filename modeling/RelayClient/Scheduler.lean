import RelayClient.Run

/-!
# The tasks of a client and their queues

A client runs as several tasks sharing its state: the event loop's task, which alone drains the two bounded
queues (`mpsc::channel(32)`: the outbound queue and the decoded-message queue), and one task per clone of the
`NativeClient` making facade calls. A task gives way to the others only at an `.await`; between two awaits its
work is one atomic move here. The awaits that matter are the sends on the bounded queues, which wait for room,
and `peers.write()`, which waits while another task holds the registry lock. The registry lock is the only lock
held across an await: `relay` keeps it across its `outbound_tx.send`, and so does `peer_handshake_responder`
in the event loop. The server lock is taken and released within one move (`request` and `connect` drop it before
sending), so it never makes a task wait.

Which ready branch `select!` takes, and which waiting task goes first, is left open: every interleaving tokio
allows is a run here, and so is whether `send_message` fails (an encoding or a socket error), which drops the
request it took off the queue and yields the error. `sealed` records every request in the order the channel
states produced it, and `sendLog` every request the loop gave `send_message`, with its failure if any, so that
both can be compared with the order on the outbound queue.

* (no progress) a burst of frames read while the decoded-message queue is full leaves the loop awaiting its own
  queue forever (`loop_blocked_by_burst`); the same holds when the loop awaits the registry lock held by a
  `relay` waiting on a full outbound queue, or waits itself on a full outbound queue (`SelfBlocked`);
* (order) two server requests made through two clones can reach the outbound queue in the reverse of the order
  in which the server channel sealed them (`server_requests_reordered`): `request` releases the server lock
  before it sends.
-/

namespace RelayClient

/-- `mpsc::channel(32)`: the capacity of the outbound queue and of the decoded-message queue. -/
def queueCapacity : Nat := 32

/-! ### Facade calls as their tasks run them -/

/-- The work of a facade call between two waits on the registry lock: each op takes the lock it needs, changes
the shared state and produces at most one request. -/
inductive Op
  | connect
  | connectPeer (publicKey : Bytes)
  | relay (publicKey payload : Bytes) (encoding : Encoding) (broadcast : Bool) (sessionId : Option SessionId)
  | request (message : ServerMessage)
  | fail (e : Error)
  deriving DecidableEq, Repr

variable {H T : Type} (N : Noise H T) (codec : Codec) (opts : ClientOptions)

/-- What an op does to the shared state. -/
def Op.run (c : Client H T) : Op → Outcome (Client H T) Unit
  | .connect => NativeClient.connect N c
  | .connectPeer k => NativeClient.connectPeer N opts c k
  | .relay k p encoding broadcast sessionId => NativeClient.relay N c k p encoding broadcast sessionId
  | .request m => NativeClient.request N codec c m
  | .fail e => .returns c [] (.error e)

/-- Whether an op waits for the registry lock. -/
def Op.needsPeers : Op → Bool
  | .connectPeer _ | .relay .. => true
  | _ => false

/-- Whether an op keeps the registry lock until its request is sent: only `relay` does. -/
def Op.holdsPeers : Op → Bool
  | .relay .. => true
  | _ => false

/-- The ops of a facade call: a broadcast relays to each recipient in turn, and a value that `serde_json`
refuses fails before any lock is taken. -/
def Call.ops : Call → List Op
  | .connect => [.connect]
  | .connectPeer k => [.connectPeer k]
  | .send k (some p) sessionId => [.relay k p .json false sessionId]
  | .send _ none _ => [.fail .json]
  | .sendBlob k p sessionId => [.relay k p .blob false sessionId]
  | .broadcast sessionId keys (some p) => keys.map fun k => .relay k p .json true (some sessionId)
  | .broadcast _ _ none => [.fail .json]
  | .broadcastBlob sessionId keys p => keys.map fun k => .relay k p .blob true (some sessionId)
  | .newSession keys => [.request (.newSession ⟨keys⟩)]
  | .sessionReadyNotify sessionId => [.request (.sessionReadyNotify sessionId)]
  | .sessionActiveNotify sessionId => [.request (.sessionActiveNotify sessionId)]
  | .registerSessionConnection sessionId k => [.request (.sessionConnection sessionId k)]
  | .closeSession sessionId => [.request (.closeSession sessionId)]

/-- Ops run back to back, stopping at the first that does not return `Ok`. -/
def Op.runAll (c : Client H T) : List Op → Outcome (Client H T) Unit
  | [] => .returns c [] (.ok ())
  | op :: ops =>
    match op.run N codec opts c with
    | .returns c' sent (.ok ()) => (Op.runAll c' ops).after sent
    | o => o

/-! ### Tasks, queues and moves -/

/-- Where the event loop's task is. -/
inductive LoopPc
  /-- `select!` over the socket, the outbound queue and the decoded-message queue. -/
  | select
  /-- `read_message`: awaiting `message_tx.send` of a decoded frame. -/
  | pushing (message : ResponseMessage)
  /-- `handle_incoming_message`: awaiting the lock of its handler. -/
  | locking (message : ResponseMessage)
  /-- `peer_handshake_responder`: holding the registry lock, awaiting `outbound_tx.send` of its reply, then
  yielding its result. -/
  | replying (pending : List RequestMessage) (result : Except Error (Option Event))
  /-- The task has panicked. -/
  | panicked (msg : String)

/-- Where the task of a clone is. -/
inductive TaskPc
  /-- No call in progress. -/
  | idle
  /-- About to run the first op, once its lock is free. -/
  | ready (ops : List Op)
  /-- Awaiting `outbound_tx.send` of the first pending request, holding the registry lock if `held`; then going
  on with `rest`. -/
  | sending (pending : List RequestMessage) (held : Bool) (rest : List Op)
  /-- The task has panicked. -/
  | panicked (msg : String)

/-- A task that has ops left is ready to run them. -/
def TaskPc.resume : List Op → TaskPc
  | [] => .idle
  | ops => .ready ops

/-- Where a task goes once an op has returned `r` after producing `sent`: it sends them first, then goes on
with `rest` on `Ok` and ends the call on an error. -/
def TaskPc.after (sent : List RequestMessage) (held : Bool) (r : Except Error Unit) (rest : List Op) : TaskPc :=
  let rest' := match r with
    | .ok () => rest
    | .error _ => []
  match sent with
  | [] => .resume rest'
  | _ => .sending sent held rest'

/-- Whether the loop holds the registry lock. -/
def LoopPc.holdsPeers : LoopPc → Bool
  | .replying .. => true
  | _ => false

/-- Whether a clone's task holds the registry lock. -/
def TaskPc.holdsPeers : TaskPc → Bool
  | .sending _ held _ => held
  | _ => false

/-- Whether the handler of a message waits for the registry lock. -/
def ResponseMessage.needsPeers : ResponseMessage → Bool
  | .transparent (.peerHandshake ..) | .opaqueMessage (.peerMessage ..) => true
  | _ => false

/-- The tasks of a client, its shared state and its two queues; `sendLog` is every request the loop has taken
off the outbound queue, in order, with the error `send_message` failed with (`none` when it wrote the request to
the socket), `sealed` every request in the order it was produced, `events` what the stream has yielded. -/
structure Sched (H T : Type) where
  client : Client H T
  outbound : List RequestMessage
  messages : List ResponseMessage
  loop : LoopPc
  tasks : List TaskPc
  sendLog : List (RequestMessage × Option Error)
  sealed : List RequestMessage
  events : List (Except Error Event)

/-- Whether no task holds the registry lock. -/
def Sched.peersFree (s : Sched H T) : Bool := !s.loop.holdsPeers && !s.tasks.any TaskPc.holdsPeers

/-- A move of one task from one await to the next. -/
inductive Move
  /-- The socket branch of `select!` with a binary frame that decodes. -/
  | receive (message : ResponseMessage)
  /-- The socket branch with a binary frame that does not decode. -/
  | garbage
  /-- `read_message`'s send completes. -/
  | push
  /-- The outbound branch: `send_message` of the oldest request, which writes it to the socket or, with
  `failure = some e`, fails and drops it. -/
  | write (failure : Option Error)
  /-- The decoded-message branch: take the oldest message. -/
  | take
  /-- The handler gets its lock and runs. -/
  | dispatch
  /-- The responder's send completes. -/
  | reply
  /-- The application makes a facade call through clone `i`. -/
  | begin (i : Nat) (call : Call)
  /-- Clone `i`'s next op gets its lock and runs. -/
  | run (i : Nat)
  /-- Clone `i`'s send completes. -/
  | send (i : Nat)

/-- The moves of the event loop's task. -/
def Move.byLoop : Move → Bool
  | .begin .. | .run _ | .send _ => false
  | _ => true

/-- One move, `none` when it cannot be made. -/
def Sched.step (s : Sched H T) : Move → Option (Sched H T)
  | .receive m =>
    match s.loop with
    | .select => some { s with loop := .pushing m }
    | _ => none
  | .garbage =>
    match s.loop with
    | .select => some { s with events := s.events ++ [.error .codec] }
    | _ => none
  | .push =>
    match s.loop with
    | .pushing m =>
      if s.messages.length < queueCapacity then some { s with messages := s.messages ++ [m], loop := .select }
      else none
    | _ => none
  | .write failure =>
    match s.loop, s.outbound with
    | .select, req :: rest =>
      match failure with
      | none => some { s with outbound := rest, sendLog := s.sendLog ++ [(req, none)] }
      | some e =>
        some { s with outbound := rest, sendLog := s.sendLog ++ [(req, some e)], events := s.events ++ [.error e] }
    | _, _ => none
  | .take =>
    match s.loop, s.messages with
    | .select, m :: rest => some { s with messages := rest, loop := .locking m }
    | _, _ => none
  | .dispatch =>
    match s.loop with
    | .locking m =>
      if m.needsPeers && !s.peersFree then none
      else
        match EventLoop.handleIncomingMessage N codec opts s.client m with
        | .returns c [] r => some { s with client := c, loop := .select, events := s.events ++ yielded r }
        | .returns c sent r => some { s with client := c, loop := .replying sent r, sealed := s.sealed ++ sent }
        | .panics msg => some { s with loop := .panicked msg }
    | _ => none
  | .reply =>
    match s.loop with
    | .replying (req :: pending) r =>
      if s.outbound.length < queueCapacity then
        match pending with
        | [] => some { s with outbound := s.outbound ++ [req], loop := .select, events := s.events ++ yielded r }
        | _ => some { s with outbound := s.outbound ++ [req], loop := .replying pending r }
      else none
    | _ => none
  | .begin i call =>
    match s.tasks[i]? with
    | some .idle => some { s with tasks := s.tasks.set i (.resume call.ops) }
    | _ => none
  | .run i =>
    match s.tasks[i]? with
    | some (.ready (op :: rest)) =>
      if op.needsPeers && !s.peersFree then none
      else
        match op.run N codec opts s.client with
        | .returns c sent r =>
          some { s with client := c, sealed := s.sealed ++ sent,
                        tasks := s.tasks.set i (.after sent op.holdsPeers r rest) }
        | .panics msg => some { s with tasks := s.tasks.set i (.panicked msg) }
    | _ => none
  | .send i =>
    match s.tasks[i]? with
    | some (.sending (req :: pending) held rest) =>
      if s.outbound.length < queueCapacity then
        some { s with outbound := s.outbound ++ [req], tasks := s.tasks.set i (.after pending held (.ok ()) rest) }
      else none
    | _ => none

/-- The state after a list of moves, `none` when one of them cannot be made. -/
def Sched.steps (s : Sched H T) : List Move → Option (Sched H T)
  | [] => some s
  | mv :: mvs => (s.step N codec opts mv).bind fun s' => s'.steps mvs

/-- A client just constructed, with `clones` clones of its `NativeClient`. -/
def Sched.start (c : Client H T) (clones : Nat) : Sched H T :=
  ⟨c, [], [], .select, List.replicate clones .idle, [], [], []⟩

/-- The states of a client's tasks from `NativeClient::new`. -/
inductive Sched.Reachable : Sched H T → Prop
  | init {c : Client H T} {status : Nat} {text : String} (clones : Nat) :
      NativeClient.new N opts status text = .ok c → Sched.Reachable (Sched.start c clones)
  | step {s s' : Sched H T} (mv : Move) : Sched.Reachable s → s.step N codec opts mv = some s' → Sched.Reachable s'

variable {N codec opts}

/-! ### Ops refine facade calls -/

@[simp] theorem Op.runAll_single (c : Client H T) (op : Op) :
    Op.runAll N codec opts c [op] = op.run N codec opts c := by
  simp only [Op.runAll]
  split <;> simp_all

private theorem relayBroadcast_eq_runAll (sessionId : SessionId) (p : Bytes) (encoding : Encoding) :
    ∀ (c : Client H T) (keys : List Bytes), NativeClient.relayBroadcast N sessionId p encoding c keys =
      Op.runAll N codec opts c (keys.map fun k => .relay k p encoding true (some sessionId))
  | c, [] => rfl
  | c, k :: keys => by
    simp only [NativeClient.relayBroadcast, List.map_cons, Op.runAll, Op.run]
    rcases NativeClient.relay N c k p encoding true (some sessionId) with ⟨c', sent, _ | ⟨⟩⟩ | msg <;>
      simp only [relayBroadcast_eq_runAll]

/-- A facade call is its ops run back to back: the tasks' interleaving is the only thing the scheduler adds. -/
theorem Call.run_eq_runAll (c : Client H T) (call : Call) :
    call.run N codec opts c = Op.runAll N codec opts c call.ops := by
  cases call with
  | send k serialized sessionId => cases serialized <;> simp [Call.run, Call.ops, NativeClient.send, Op.run]
  | broadcast sessionId keys serialized =>
    cases serialized with
    | none => rfl
    | some p => exact relayBroadcast_eq_runAll sessionId p .json c keys
  | broadcastBlob sessionId keys p => exact relayBroadcast_eq_runAll sessionId p .blob c keys
  | _ => simp [Call.run, Call.ops, Op.run, NativeClient.sendBlob, NativeClient.newSession,
      NativeClient.sessionReadyNotify, NativeClient.sessionActiveNotify, NativeClient.registerSessionConnection,
      NativeClient.closeSession]

@[simp] theorem Sched.steps_nil (s : Sched H T) : s.steps N codec opts [] = some s := rfl

@[simp] theorem Sched.steps_cons (s : Sched H T) (mv : Move) (mvs : List Move) :
    s.steps N codec opts (mv :: mvs) = (s.step N codec opts mv).bind fun s' => s'.steps N codec opts mvs := rfl

theorem Sched.steps_append (s : Sched H T) (mvs mvs' : List Move) :
    s.steps N codec opts (mvs ++ mvs') = (s.steps N codec opts mvs).bind fun s' => s'.steps N codec opts mvs' := by
  induction mvs generalizing s with
  | nil => rfl
  | cons mv mvs ih => simp only [List.cons_append, steps_cons, ih, Option.bind_assoc]

theorem Sched.Reachable.steps {s : Sched H T} (h : s.Reachable N codec opts) :
    ∀ {mvs : List Move} {s' : Sched H T}, s.steps N codec opts mvs = some s' → s'.Reachable N codec opts
  | [], _, hs => by cases hs; exact h
  | mv :: mvs, s', hs => by
    obtain ⟨s₁, h₁, h₂⟩ := Option.bind_eq_some.1 hs
    exact (h.step mv h₁).steps h₂

/-! ### What a move needs and what it changes -/

/-- What a move needs of the state it is made in: its task at the right await, room in the queue it sends on,
and the registry lock free if it waits for it. -/
def Sched.Allows (s : Sched H T) : Move → Prop
  | .receive _ | .garbage | .write _ | .take => s.loop = .select
  | .push => ∃ m, s.loop = .pushing m ∧ s.messages.length < queueCapacity
  | .dispatch => ∃ m, s.loop = .locking m ∧ (m.needsPeers = true → s.peersFree = true)
  | .reply => ∃ pending r, s.loop = .replying pending r ∧ s.outbound.length < queueCapacity
  | .begin i _ => s.tasks[i]? = some .idle
  | .run i => ∃ op rest, s.tasks[i]? = some (.ready (op :: rest)) ∧ (op.needsPeers = true → s.peersFree = true)
  | .send i => ∃ pending held rest, s.tasks[i]? = some (.sending pending held rest) ∧
      s.outbound.length < queueCapacity

/-- The clone whose task a move belongs to. -/
def Move.task? : Move → Option Nat
  | .begin i _ | .run i | .send i => some i
  | _ => none

theorem Sched.allows_of_step {s s' : Sched H T} {mv : Move} (h : s.step N codec opts mv = some s') :
    s.Allows mv := by
  cases mv <;> simp only [Sched.step] at h <;> simp only [Sched.Allows]
  all_goals repeat' split at h
  all_goals first
    | (cases h; done)
    | simp_all

/-- A move of a clone's task leaves the loop, the decoded-message queue and the other clones alone, and sends on
the outbound queue only into room. -/
theorem Sched.step_task_frame {s s' : Sched H T} {mv : Move} {i : Nat} (h : s.step N codec opts mv = some s')
    (hi : mv.task? = some i) :
    s'.loop = s.loop ∧ s'.messages = s.messages ∧ (∀ k, k ≠ i → s'.tasks[k]? = s.tasks[k]?) ∧
      (s'.outbound = s.outbound ∨ s.outbound.length < queueCapacity) := by
  cases mv <;> simp only [Move.task?, Option.some.injEq, reduceCtorEq] at hi <;> subst hi <;>
    simp only [Sched.step] at h
  all_goals repeat' split at h
  all_goals first
    | (cases h; done)
    | (cases h; exact ⟨rfl, rfl, fun k hk => List.getElem?_set_ne (Ne.symm hk), by simp_all⟩)

/-- A move of the loop leaves the clones' tasks alone. -/
theorem Sched.step_loop_frame {s s' : Sched H T} {mv : Move} (h : s.step N codec opts mv = some s')
    (hmv : mv.byLoop = true) : s'.tasks = s.tasks := by
  cases mv <;> simp only [Move.byLoop, reduceCtorEq] at hmv <;> simp only [Sched.step] at h
  all_goals repeat' split at h
  all_goals first
    | (cases h; done)
    | (cases h; rfl)

/-! ### The moves of a clone's task -/

theorem Sched.step_begin {s : Sched H T} {i : Nat} (call : Call) (h : s.tasks[i]? = some .idle) :
    s.step N codec opts (.begin i call) = some { s with tasks := s.tasks.set i (.resume call.ops) } := by
  simp only [Sched.step, h]

theorem Sched.step_run {s : Sched H T} {i : Nat} {op : Op} {rest : List Op} {c : Client H T}
    {sent : List RequestMessage} {r : Except Error Unit} (h : s.tasks[i]? = some (.ready (op :: rest)))
    (hp : op.needsPeers = true → s.peersFree = true) (hr : op.run N codec opts s.client = .returns c sent r) :
    s.step N codec opts (.run i) =
      some { s with client := c, sealed := s.sealed ++ sent,
                    tasks := s.tasks.set i (.after sent op.holdsPeers r rest) } := by
  have hfree : (op.needsPeers && !s.peersFree) = false := by cases hn : op.needsPeers <;> simp_all
  simp only [Sched.step, h, hfree, hr, Bool.false_eq_true, if_false]

theorem Sched.step_send {s : Sched H T} {i : Nat} {req : RequestMessage} {pending : List RequestMessage}
    {held : Bool} {rest : List Op} (h : s.tasks[i]? = some (.sending (req :: pending) held rest))
    (hroom : s.outbound.length < queueCapacity) :
    s.step N codec opts (.send i) =
      some { s with outbound := s.outbound ++ [req], tasks := s.tasks.set i (.after pending held (.ok ()) rest) } := by
  simp only [Sched.step, h, if_pos hroom]

theorem Sched.steps_cons_of_step {s s₁ s₂ : Sched H T} {mv : Move} {mvs : List Move}
    (h : s.step N codec opts mv = some s₁) (h' : s₁.steps N codec opts mvs = some s₂) :
    s.steps N codec opts (mv :: mvs) = some s₂ := by
  simp only [Sched.steps_cons, h, Option.some_bind, h']

/-! ### What each move can do -/

theorem Sched.step_begin_inv {s s' : Sched H T} {i : Nat} {call : Call}
    (h : s.step N codec opts (.begin i call) = some s') :
    s.tasks[i]? = some .idle ∧ s' = { s with tasks := s.tasks.set i (.resume call.ops) } := by
  simp only [Sched.step] at h
  split at h <;> cases h
  exact ⟨by assumption, rfl⟩

theorem Sched.step_run_inv {s s' : Sched H T} {i : Nat} (h : s.step N codec opts (.run i) = some s') :
    ∃ op rest, s.tasks[i]? = some (.ready (op :: rest)) ∧ (op.needsPeers = true → s.peersFree = true) ∧
      ((∃ c sent r, op.run N codec opts s.client = .returns c sent r ∧
          s' = { s with client := c, sealed := s.sealed ++ sent,
                        tasks := s.tasks.set i (.after sent op.holdsPeers r rest) }) ∨
        ∃ msg, op.run N codec opts s.client = .panics msg ∧
          s' = { s with tasks := s.tasks.set i (.panicked msg) }) := by
  simp only [Sched.step] at h
  split at h
  · rename_i op rest hti
    split at h
    · cases h
    · rename_i hg
      have hp : op.needsPeers = true → s.peersFree = true := fun hn => by simpa [hn] using hg
      split at h <;> cases h
      · exact ⟨op, rest, hti, hp, .inl ⟨_, _, _, by assumption, rfl⟩⟩
      · exact ⟨op, rest, hti, hp, .inr ⟨_, by assumption, rfl⟩⟩
  · cases h

theorem Sched.step_send_inv {s s' : Sched H T} {i : Nat} (h : s.step N codec opts (.send i) = some s') :
    ∃ req pending held rest, s.tasks[i]? = some (.sending (req :: pending) held rest) ∧
      s.outbound.length < queueCapacity ∧
      s' = { s with outbound := s.outbound ++ [req], tasks := s.tasks.set i (.after pending held (.ok ()) rest) } := by
  simp only [Sched.step] at h
  split at h
  · split at h <;> cases h
    exact ⟨_, _, _, _, by assumption, by assumption, rfl⟩
  · cases h

theorem Sched.step_dispatch_inv {s s' : Sched H T} (h : s.step N codec opts .dispatch = some s') :
    ∃ m, s.loop = .locking m ∧ (m.needsPeers = true → s.peersFree = true) ∧
      ((∃ c r, EventLoop.handleIncomingMessage N codec opts s.client m = .returns c [] r ∧
          s' = { s with client := c, loop := .select, events := s.events ++ yielded r }) ∨
        (∃ c sent r, sent ≠ [] ∧ EventLoop.handleIncomingMessage N codec opts s.client m = .returns c sent r ∧
          s' = { s with client := c, loop := .replying sent r, sealed := s.sealed ++ sent }) ∨
        ∃ msg, EventLoop.handleIncomingMessage N codec opts s.client m = .panics msg ∧
          s' = { s with loop := .panicked msg }) := by
  simp only [Sched.step] at h
  split at h
  · rename_i m hl
    split at h
    · cases h
    · rename_i hg
      have hp : m.needsPeers = true → s.peersFree = true := fun hn => by simpa [hn] using hg
      split at h <;> cases h
      · exact ⟨m, hl, hp, .inl ⟨_, _, by assumption, rfl⟩⟩
      · rename_i c sent r hne hd
        exact ⟨m, hl, hp, .inr (.inl ⟨c, sent, r, hne, hd, rfl⟩)⟩
      · exact ⟨m, hl, hp, .inr (.inr ⟨_, by assumption, rfl⟩)⟩
  · cases h

theorem Sched.step_reply_inv {s s' : Sched H T} (h : s.step N codec opts .reply = some s') :
    ∃ req pending r, s.loop = .replying (req :: pending) r ∧ s.outbound.length < queueCapacity ∧
      ((pending = [] ∧
          s' = { s with outbound := s.outbound ++ [req], loop := .select, events := s.events ++ yielded r }) ∨
        s' = { s with outbound := s.outbound ++ [req], loop := .replying pending r }) := by
  simp only [Sched.step] at h
  split at h
  · split at h
    · split at h <;> cases h
      · exact ⟨_, _, _, by assumption, by assumption, .inl ⟨rfl, rfl⟩⟩
      · exact ⟨_, _, _, by assumption, by assumption, .inr rfl⟩
    · cases h
  · cases h

theorem Sched.peersFree_of_loop {s : Sched H T} (h : s.loop.holdsPeers = true) : s.peersFree = false := by
  simp [Sched.peersFree, h]

theorem Sched.peersFree_of_task {s : Sched H T} {k : Nat} {pc : TaskPc} (hk : s.tasks[k]? = some pc)
    (h : pc.holdsPeers = true) : s.peersFree = false := by
  have hmem : pc ∈ s.tasks := List.mem_iff_getElem?.2 ⟨k, hk⟩
  simp only [Sched.peersFree, Bool.and_eq_false_iff, Bool.not_eq_false', List.any_eq_true]
  exact .inr ⟨pc, hmem, h⟩

/-! ### No progress -/

variable (N codec opts) in
/-- The loop can make no move, now or after any moves of the other tasks. -/
def Sched.BlockedForever (s : Sched H T) : Prop :=
  ∀ mvs s', s.steps N codec opts mvs = some s' → ∀ mv, mv.byLoop = true → s'.step N codec opts mv = none

/-- The three ways the loop ends up waiting on itself, the only task that drains the two queues:
`read_message` awaiting room in a full decoded-message queue; the responder, holding the registry lock,
awaiting room in a full outbound queue; a handler awaiting the registry lock that a `relay` holds while it
awaits room in a full outbound queue. -/
def Sched.SelfBlocked (s : Sched H T) : Prop :=
  (∃ m, s.loop = .pushing m ∧ queueCapacity ≤ s.messages.length) ∨
  (∃ pending r, s.loop = .replying pending r ∧ queueCapacity ≤ s.outbound.length) ∨
  (∃ (m : ResponseMessage) (k : Nat) (pending : List RequestMessage) (rest : List Op), s.loop = .locking m ∧
    m.needsPeers = true ∧
      s.tasks[k]? = some (.sending pending true rest) ∧ queueCapacity ≤ s.outbound.length)

/-- In a self-blocked state no move of the loop is allowed. -/
theorem Sched.SelfBlocked.not_allows {s : Sched H T} (hb : s.SelfBlocked) {mv : Move} (hmv : mv.byLoop = true) :
    ¬ s.Allows mv := by
  intro ha
  rcases hb with ⟨m, hl, hc⟩ | ⟨pending, r, hl, hc⟩ | ⟨m, k, pending, rest, hl, hm, hk, hc⟩ <;>
    cases mv <;> simp only [Move.byLoop, reduceCtorEq] at hmv <;>
    simp only [Sched.Allows, hl, reduceCtorEq, LoopPc.pushing.injEq, LoopPc.replying.injEq,
      LoopPc.locking.injEq, false_and, exists_false] at ha
  all_goals first
    | (obtain ⟨_, -, h⟩ := ha; omega)
    | (obtain ⟨_, _, -, h⟩ := ha; omega)
    | (obtain ⟨_, rfl, h⟩ := ha; simp [hm, Sched.peersFree_of_task hk rfl] at h)

/-- Whatever the other tasks do, a self-blocked loop stays self-blocked. -/
theorem Sched.SelfBlocked.step {s s' : Sched H T} {mv : Move} (hb : s.SelfBlocked)
    (h : s.step N codec opts mv = some s') : s'.SelfBlocked := by
  have ha := Sched.allows_of_step h
  cases hmv : mv.task? with
  | none =>
    have hl : mv.byLoop = true := by cases mv <;> simp_all [Move.task?, Move.byLoop]
    exact absurd ha (hb.not_allows hl)
  | some i =>
    obtain ⟨hl, hm, hk, ho⟩ := Sched.step_task_frame h hmv
    rcases hb with ⟨m, hl₀, hc⟩ | ⟨pending, r, hl₀, hc⟩ | ⟨m, k, pending, rest, hl₀, hm₀, hk₀, hc⟩
    · exact .inl ⟨m, hl ▸ hl₀, hm ▸ hc⟩
    · rcases ho with ho | ho
      · exact .inr (.inl ⟨pending, r, hl ▸ hl₀, ho ▸ hc⟩)
      · omega
    · have hik : k ≠ i := by
        rintro rfl
        cases mv <;> simp only [Move.task?, Option.some.injEq, reduceCtorEq] at hmv <;> subst hmv <;>
          simp only [Sched.Allows, hk₀, Option.some.injEq, reduceCtorEq, false_and, exists_false] at ha
        obtain ⟨_, _, _, -, h⟩ := ha
        omega
      rcases ho with ho | ho
      · exact .inr (.inr ⟨m, k, pending, rest, hl ▸ hl₀, hm₀, (hk k hik).trans hk₀, ho ▸ hc⟩)
      · omega

/-- A self-blocked loop is blocked forever. -/
theorem Sched.SelfBlocked.blockedForever {s : Sched H T} (hb : s.SelfBlocked) :
    s.BlockedForever N codec opts := by
  intro mvs
  induction mvs generalizing s with
  | nil =>
    rintro s' ⟨⟩ mv hmv
    cases h : s.step N codec opts mv with
    | none => rfl
    | some s'' => exact absurd (Sched.allows_of_step h) (hb.not_allows hmv)
  | cons mv mvs ih =>
    intro s' h
    obtain ⟨s₁, h₁, h₂⟩ := Option.bind_eq_some.1 h
    exact ih (hb.step h₁) s' h₂

/-- Frames read one after another, each pushed on the decoded-message queue before the next. -/
def burst (ms : List ResponseMessage) : List Move := ms.flatMap fun m => [.receive m, .push]

theorem Sched.steps_burst : ∀ {s : Sched H T} {ms : List ResponseMessage}, s.loop = .select →
    s.messages.length + ms.length ≤ queueCapacity →
    s.steps N codec opts (burst ms) = some { s with messages := s.messages ++ ms }
  | s, [], _, _ => by simp [burst]
  | s, m :: ms, hl, hc => by
    rw [List.length_cons] at hc
    have hroom : s.messages.length < queueCapacity := by omega
    have h₂ := @Sched.steps_burst { s with messages := s.messages ++ [m], loop := .select } ms rfl
      (by simp only [List.length_append, List.length_singleton]; omega)
    simp only [burst, List.flatMap_cons, List.cons_append, List.nil_append, steps_cons, Sched.step, hl,
      Option.some_bind, if_pos hroom] at h₂ ⊢
    simpa [hl] using h₂

/-- From every reachable state whose loop is at `select!`, frames that arrive faster than the loop takes them
block it forever: once the decoded-message queue holds 32 messages, the next frame read leaves `read_message`
awaiting room that only the loop itself can make. -/
theorem loop_blocked_by_burst {s : Sched H T} (hs : s.Reachable N codec opts) (hl : s.loop = .select)
    (ms : List ResponseMessage) (hlen : s.messages.length + ms.length = queueCapacity) (m : ResponseMessage) :
    ∃ s', s.steps N codec opts (burst ms ++ [.receive m]) = some s' ∧ s'.Reachable N codec opts ∧
      s'.BlockedForever N codec opts := by
  have hb : s.steps N codec opts (burst ms) = some { s with messages := s.messages ++ ms } :=
    Sched.steps_burst hl (Nat.le_of_eq hlen)
  have hsteps : s.steps N codec opts (burst ms ++ [.receive m]) =
      some { s with messages := s.messages ++ ms, loop := .pushing m } := by
    simp [Sched.steps_append, hb, Sched.step, hl]
  refine ⟨_, hsteps, hs.steps hsteps, Sched.SelfBlocked.blockedForever (.inl ⟨m, rfl, ?_⟩)⟩
  simp [hlen]

set_option maxRecDepth 20000 in
theorem loop_blocked_by_burst_reference :
    ∃ s', (Sched.start (referenceStart 1).client 1).steps Noise.reference Codec.silent (referenceOptions 1)
        (burst (List.replicate 32 (.opaqueMessage (.serverMessage ⟨0, .blob, [], false⟩))) ++
          [.receive (.opaqueMessage (.serverMessage ⟨0, .blob, [], false⟩))]) = some s' ∧
      s'.Reachable Noise.reference Codec.silent (referenceOptions 1) ∧
      s'.BlockedForever Noise.reference Codec.silent (referenceOptions 1) :=
  loop_blocked_by_burst (@Sched.Reachable.init _ _ Noise.reference Codec.silent (referenceOptions 1) _ 101 "" 1 rfl)
    rfl (List.replicate 32 (.opaqueMessage (.serverMessage ⟨0, .blob, [], false⟩))) rfl _

/-! ### Order on the server channel -/

/-- The request carrying a server envelope sealed as `x`. -/
def serverEnvelope (x : Bytes) : RequestMessage := .opaqueMessage (.serverMessage ⟨x.length, .blob, x, false⟩)

/-- From every reachable state with the server channel in transport mode, two server requests made through two
clones can reach the outbound queue in the reverse of the order the channel sealed them: the first releases the
server lock before its send, the second seals and sends, and only then does the first send. -/
theorem server_requests_reordered {s : Sched H T} (hs : s.Reachable N codec opts) {i j : Nat} (hij : i ≠ j)
    (hi : s.tasks[i]? = some .idle) (hj : s.tasks[j]? = some .idle) (hroom : s.outbound.length + 2 ≤ queueCapacity)
    {call₁ call₂ : Call} {m₁ m₂ : ServerMessage} (hc₁ : call₁.ops = [.request m₁]) (hc₂ : call₂.ops = [.request m₂])
    {t t₁ t₂ : T} {p₁ p₂ x₁ x₂ : Bytes} (ht : s.client.server = some (.transport t))
    (he₁ : codec.encode m₁ = .ok p₁) (hw₁ : N.writeTransport t p₁ = .ok (x₁, t₁))
    (he₂ : codec.encode m₂ = .ok p₂) (hw₂ : N.writeTransport t₁ p₂ = .ok (x₂, t₂)) :
    ∃ s', s.steps N codec opts [.begin i call₁, .run i, .begin j call₂, .run j, .send j, .send i] = some s' ∧
      s'.Reachable N codec opts ∧ s'.sealed = s.sealed ++ [serverEnvelope x₁, serverEnvelope x₂] ∧
      s'.outbound = s.outbound ++ [serverEnvelope x₂, serverEnvelope x₁] := by
  have hil : i < s.tasks.length := (List.getElem?_eq_some_iff.1 hi).1
  have hjl : j < s.tasks.length := (List.getElem?_eq_some_iff.1 hj).1
  have hr₁ : Op.run N codec opts s.client (.request m₁) =
      .returns { s.client with server := some (.transport t₁) } [serverEnvelope x₁] (.ok ()) :=
    NativeClient.request_transport ht he₁ hw₁
  have hr₂ : Op.run N codec opts { s.client with server := some (.transport t₁) } (.request m₂) =
      .returns { s.client with server := some (.transport t₂) } [serverEnvelope x₂] (.ok ()) :=
    NativeClient.request_transport (c := { s.client with server := some (.transport t₁) }) rfl he₂ hw₂
  -- clone `i` seals its request and gives way at its send; clone `j` seals and sends; then `i` sends
  have hsteps : s.steps N codec opts [.begin i call₁, .run i, .begin j call₂, .run j, .send j, .send i] = some _ :=
    Sched.steps_cons_of_step (Sched.step_begin call₁ hi) <|
    Sched.steps_cons_of_step (Sched.step_run ((List.getElem?_set_self hil).trans (by rw [hc₁]; rfl))
      (by simp [Op.needsPeers]) hr₁) <|
    Sched.steps_cons_of_step (Sched.step_begin call₂ (by simpa [hij] using hj)) <|
    Sched.steps_cons_of_step (Sched.step_run ((List.getElem?_set_self (by simpa using hjl)).trans (by rw [hc₂]; rfl))
      (by simp [Op.needsPeers]) hr₂) <|
    Sched.steps_cons_of_step (Sched.step_send (List.getElem?_set_self (by simpa using hjl)) (by simp; omega)) <|
    Sched.steps_cons_of_step (Sched.step_send ((List.getElem?_set_ne hij.symm).trans <|
      (List.getElem?_set_ne hij.symm).trans <| (List.getElem?_set_ne hij.symm).trans <|
        List.getElem?_set_self (by simpa using hil)) (by simp; omega)) rfl
  exact ⟨_, hsteps, hs.steps hsteps, by simp, by simp⟩

/-- The reference client `[1]` with two clones, once `connect` has sent the first handshake message through
clone `0`, the loop has written it and has dispatched the server's answer. -/
def referenceConnected : Sched Noise.Reference.Handshake Noise.Reference.Transport :=
  ((Sched.start (referenceStart 1).client 2).steps Noise.reference Codec.silent (referenceOptions 1)
    [.begin 0 .connect, .run 0, .send 0, .write none, .receive (.transparent (.serverHandshake (.responder 1 [9]))),
      .push, .take, .dispatch]).getD (Sched.start (referenceStart 1).client 2)

set_option maxRecDepth 20000 in
theorem reachable_referenceConnected :
    referenceConnected.Reachable Noise.reference Codec.silent (referenceOptions 1) :=
  @Sched.Reachable.steps _ _ Noise.reference Codec.silent (referenceOptions 1) _
    (@Sched.Reachable.init _ _ Noise.reference Codec.silent (referenceOptions 1) _ 101 "" 2 rfl)
    [.begin 0 .connect, .run 0, .send 0, .write none, .receive (.transparent (.serverHandshake (.responder 1 [9]))),
      .push, .take, .dispatch] _ rfl

set_option maxRecDepth 20000 in
/-- Two `new_session` calls through the two clones of the reference client: the envelope sealed at nonce `1`
is queued before the one sealed at nonce `0`, and the server's receiving state, at nonce `0`, rejects it. -/
theorem server_requests_reordered_reference :
    (∃ s', referenceConnected.steps Noise.reference Codec.silent (referenceOptions 1)
        [.begin 0 (.newSession []), .run 0, .begin 1 (.newSession [[2]]), .run 1, .send 1, .send 0] = some s' ∧
      s'.Reachable Noise.reference Codec.silent (referenceOptions 1) ∧
      s'.sealed = referenceConnected.sealed ++
        [serverEnvelope (List.replicate 16 10), serverEnvelope (List.replicate 16 11)] ∧
      s'.outbound = referenceConnected.outbound ++
        [serverEnvelope (List.replicate 16 11), serverEnvelope (List.replicate 16 10)]) ∧
    Noise.reference.readTransport ⟨[1, 9, 1], 0, [1, 9, 0], 0⟩ (List.replicate 16 11) = .error .decrypt :=
  ⟨@server_requests_reordered _ _ Noise.reference Codec.silent (referenceOptions 1) referenceConnected
    reachable_referenceConnected
    0 1 (by decide) (by rfl) (by rfl) (by decide) (.newSession []) (.newSession [[2]]) (.newSession ⟨[]⟩)
    (.newSession ⟨[[2]]⟩) rfl rfl ⟨[1, 9, 0], 0, [1, 9, 1], 0⟩ ⟨[1, 9, 0], 1, [1, 9, 1], 0⟩ ⟨[1, 9, 0], 2, [1, 9, 1], 0⟩
    [] [] (List.replicate 16 10) (List.replicate 16 11) (by rfl) rfl (by rfl) rfl (by rfl), by rfl⟩

end RelayClient
