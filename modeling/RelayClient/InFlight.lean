import RelayClient.Scheduler

/-!
# Requests in flight

What becomes of the requests the tasks seal, in every reachable state of the scheduler, once the loop takes them
off the outbound queue and `send_message` writes them to the socket or fails and drops them:

* (order) the peer envelopes the loop has taken off the outbound queue, followed by those still queued, are, in
  order, the first of the peer envelopes the channels have sealed (`peer_envelopes_in_order`): every task that
  seals on a peer channel takes the registry's write lock first, and `relay` keeps it across its
  `outbound_tx.send`. So those written to the socket come in the order of their nonces, with a gap wherever a
  write failed; the server channel has no such guarantee, since `request` releases its lock before it sends;
* (no silent loss, no duplicate) every request sealed is, exactly once, written to the socket, dropped by a failed
  write, waiting on the outbound queue, or still to be sent by the task that sealed it, and the error of every
  failed write is on the event stream, in order (`requests_conserved`): the queues may reorder requests
  (`server_requests_reordered`) but never repeat one, and drop one only with an error.

Order comes from one invariant, `Sched.LockInv`: at most one task holds the registry lock, only the holder has
peer envelopes left to send, and the peer envelopes sealed are those taken or queued, followed by those the holder
has yet to send.
-/

namespace RelayClient

variable {H T : Type} {N : Noise H T} {codec : Codec} {opts : ClientOptions}

/-! ### Lists with one distinguished element -/

section Lists

variable {α β : Type}

private theorem getElem?_set_cases {l : List α} {i k : Nat} {a b : α} (h : (l.set i a)[k]? = some b) :
    (k = i ∧ b = a) ∨ (k ≠ i ∧ l[k]? = some b) := by
  rw [List.getElem?_set] at h
  split_ifs at h with hik
  · exact .inl ⟨hik.symm, (Option.some.inj h).symm⟩
  · exact .inr ⟨Ne.symm hik, h⟩

/-- A `flatMap` to which only the `i`-th element contributes. -/
private theorem flatMap_of_others {g : α → List β} :
    ∀ {l : List α} {i : Nat} {b : α}, l[i]? = some b → (∀ k c, k ≠ i → l[k]? = some c → g c = []) →
      l.flatMap g = g b
  | [], _, _, hb, _ => by simp at hb
  | x :: xs, 0, b, hb, h => by
    obtain rfl : x = b := by simpa using hb
    simp only [List.flatMap_cons, List.append_right_eq_self, List.flatMap_eq_nil_iff]
    intro c hc
    obtain ⟨k, hk⟩ := List.mem_iff_getElem?.1 hc
    exact h (k + 1) c (by omega) (by simpa using hk)
  | x :: xs, i + 1, b, hb, h => by
    rw [List.flatMap_cons, h 0 x (by omega) (by simp), List.nil_append]
    exact flatMap_of_others (by simpa using hb) fun k c hk hc => h (k + 1) c (by omega) (by simpa using hc)

private theorem flatMap_set_of_eq {g : α → List β} :
    ∀ {l : List α} {i : Nat} {a b : α}, l[i]? = some b → g a = g b → (l.set i a).flatMap g = l.flatMap g
  | [], _, _, _, hb, _ => by simp at hb
  | x :: xs, 0, a, b, hb, hg => by
    obtain rfl : x = b := by simpa using hb
    simp [hg]
  | x :: xs, i + 1, a, b, hb, hg => by
    simp [flatMap_set_of_eq (l := xs) (by simpa using hb) hg]

/-- Replacing the `i`-th element of a list trades its contribution to a `flatMap` for the new one's. -/
private theorem count_flatMap_set [DecidableEq β] {g : α → List β} (x : β) :
    ∀ {l : List α} {i : Nat} {a b : α}, l[i]? = some b →
      ((l.set i a).flatMap g).count x + (g b).count x = (l.flatMap g).count x + (g a).count x
  | [], _, _, _, hb => by simp at hb
  | y :: ys, 0, a, b, hb => by
    obtain rfl : y = b := by simpa using hb
    simp only [List.set_cons_zero, List.flatMap_cons, List.count_append]
    omega
  | y :: ys, i + 1, a, b, hb => by
    have ih := count_flatMap_set (g := g) x (l := ys) (a := a) (by simpa using hb)
    simp only [List.set_cons_succ, List.flatMap_cons, List.count_append]
    omega

end Lists

/-! ### Who holds the lock, and what is left to send -/

/-- Whether a request is an envelope sealed on a peer channel. -/
def RequestMessage.isPeerMessage : RequestMessage → Bool
  | .opaqueMessage (.peerMessage ..) => true
  | _ => false

/-- The requests a clone's task has yet to send. -/
def TaskPc.pending : TaskPc → List RequestMessage
  | .sending pending _ _ => pending
  | _ => []

/-- The requests the loop has yet to send. -/
def LoopPc.pending : LoopPc → List RequestMessage
  | .replying pending _ => pending
  | _ => []

/-- The peer envelopes a clone's task has yet to send. -/
def TaskPc.peerPending (pc : TaskPc) : List RequestMessage := pc.pending.filter RequestMessage.isPeerMessage

/-- At most one clone's task holds the registry lock. -/
def Exclusive (tasks : List TaskPc) : Prop :=
  ∀ (k k' : Nat) (pc pc' : TaskPc), tasks[k]? = some pc → tasks[k']? = some pc' → pc.holdsPeers = true →
    pc'.holdsPeers = true → k = k'

@[simp] theorem TaskPc.pending_resume (ops : List Op) : (TaskPc.resume ops).pending = [] := by
  unfold TaskPc.resume; split <;> rfl

@[simp] theorem TaskPc.holdsPeers_resume (ops : List Op) : (TaskPc.resume ops).holdsPeers = false := by
  unfold TaskPc.resume; split <;> rfl

@[simp] theorem TaskPc.pending_idle : TaskPc.idle.pending = [] := rfl

@[simp] theorem TaskPc.pending_ready (ops : List Op) : (TaskPc.ready ops).pending = [] := rfl

@[simp] theorem TaskPc.pending_panicked (msg : String) : (TaskPc.panicked msg).pending = [] := rfl

@[simp] theorem TaskPc.pending_sending (pending : List RequestMessage) (held : Bool) (rest : List Op) :
    (TaskPc.sending pending held rest).pending = pending := rfl

@[simp] theorem TaskPc.peerPending_idle : TaskPc.idle.peerPending = [] := rfl

@[simp] theorem TaskPc.peerPending_ready (ops : List Op) : (TaskPc.ready ops).peerPending = [] := rfl

@[simp] theorem TaskPc.peerPending_panicked (msg : String) : (TaskPc.panicked msg).peerPending = [] := rfl

@[simp] theorem TaskPc.peerPending_sending (pending : List RequestMessage) (held : Bool) (rest : List Op) :
    (TaskPc.sending pending held rest).peerPending = pending.filter RequestMessage.isPeerMessage := rfl

@[simp] theorem TaskPc.pending_after (sent : List RequestMessage) (held : Bool) (r : Except Error Unit)
    (rest : List Op) : (TaskPc.after sent held r rest).pending = sent := by
  cases sent with
  | nil => simp [TaskPc.after]
  | cons => rfl

@[simp] theorem TaskPc.holdsPeers_after (sent : List RequestMessage) (held : Bool) (r : Except Error Unit)
    (rest : List Op) : (TaskPc.after sent held r rest).holdsPeers = (held && !sent.isEmpty) := by
  cases sent with
  | nil => simp [TaskPc.after]
  | cons => simp [TaskPc.after, TaskPc.holdsPeers]

@[simp] theorem TaskPc.peerPending_resume (ops : List Op) : (TaskPc.resume ops).peerPending = [] := by
  simp [TaskPc.peerPending]

@[simp] theorem TaskPc.peerPending_after (sent : List RequestMessage) (held : Bool) (r : Except Error Unit)
    (rest : List Op) : (TaskPc.after sent held r rest).peerPending = sent.filter RequestMessage.isPeerMessage := by
  simp [TaskPc.peerPending]

/-! ### What the loop has done with the requests it took -/

/-- The requests the loop has taken off the outbound queue, in order. -/
@[simp] def Sched.taken (s : Sched H T) : List RequestMessage := s.sendLog.map Prod.fst

/-- The requests `send_message` wrote to the socket, in order. -/
def Sched.written (s : Sched H T) : List RequestMessage := (s.sendLog.filter fun x => x.2.isNone).map Prod.fst

/-- The requests `send_message` dropped on an error, in order. -/
def Sched.dropped (s : Sched H T) : List RequestMessage := (s.sendLog.filter fun x => x.2.isSome).map Prod.fst

/-- The errors of the failed writes, as items of the event stream, in order. -/
def Sched.writeErrors (s : Sched H T) : List (Except Error Event) := s.sendLog.filterMap fun x => x.2.map .error

/-- Each request taken was written or dropped. -/
theorem Sched.taken_perm (s : Sched H T) : s.taken.Perm (s.written ++ s.dropped) := by
  have hs : (s.sendLog.filter fun x => !x.2.isNone) = s.sendLog.filter fun x => x.2.isSome :=
    List.filter_congr fun x _ => by cases x.2 <;> rfl
  have h := (List.filter_append_perm (fun x : RequestMessage × Option Error => x.2.isNone) s.sendLog).map Prod.fst
  rw [hs, List.map_append] at h
  exact h.symm

theorem Sched.written_sublist (s : Sched H T) : s.written.Sublist s.taken := (List.filter_sublist _).map _

theorem Sched.peersFree_eq_true {s : Sched H T} :
    s.peersFree = true ↔ s.loop.holdsPeers = false ∧ ∀ pc ∈ s.tasks, pc.holdsPeers = false := by
  simp [Sched.peersFree]

private theorem exclusive_set {l : List TaskPc} {i : Nat} {a : TaskPc} (hl : Exclusive l)
    (ha : a.holdsPeers = true → ∀ k pc, k ≠ i → l[k]? = some pc → pc.holdsPeers = false) :
    Exclusive (l.set i a) := by
  intro k k' pc pc' hk hk' hp hp'
  rcases getElem?_set_cases hk with ⟨rfl, rfl⟩ | ⟨hki, hl₁⟩ <;>
    rcases getElem?_set_cases hk' with ⟨rfl, rfl⟩ | ⟨hk'i, hl₂⟩
  · rfl
  · simp [ha hp k' pc' hk'i hl₂] at hp'
  · simp [ha hp' k pc hki hl₁] at hp
  · exact hl k k' pc pc' hl₁ hl₂ hp hp'

/-- The loop's moves on the socket and on the decoded-message queue, and its writes: they seal nothing, leave the
clones alone and only move requests from the outbound queue to those taken; the loop holds no lock and has nothing
to send before them or after. -/
theorem Sched.step_quiet {s s' : Sched H T} {mv : Move} (h : s.step N codec opts mv = some s')
    (hmv : mv.byLoop = true) (hd : mv ≠ .dispatch) (hr : mv ≠ .reply) :
    s'.tasks = s.tasks ∧ s'.sealed = s.sealed ∧ s'.taken ++ s'.outbound = s.taken ++ s.outbound ∧
      s'.loop.holdsPeers = false ∧ s.loop.pending = [] ∧ s'.loop.pending = [] := by
  cases mv <;> simp only [Move.byLoop, ne_eq, not_true_eq_false, reduceCtorEq] at hmv hd hr <;>
    simp only [Sched.step] at h
  all_goals repeat' split at h
  all_goals first
    | (cases h; done)
    | (cases h; simp_all [LoopPc.holdsPeers, LoopPc.pending])

/-- A move other than a write leaves the log of `send_message` alone and only adds to the events. -/
theorem Sched.step_sendLog {s s' : Sched H T} {mv : Move} (h : s.step N codec opts mv = some s')
    (hmv : ∀ failure, mv ≠ .write failure) : s'.sendLog = s.sendLog ∧ s.events <+: s'.events := by
  cases mv
  case write failure => exact absurd rfl (hmv failure)
  all_goals simp only [Sched.step] at h
  all_goals repeat' split at h
  all_goals first
    | (cases h; done)
    | (cases h; simp)

/-! ### What is sealed on a peer channel -/

/-- Of the ops, only `relay` seals on a peer channel, and all it sends is its envelope. -/
theorem Op.run_peerMessages {c c' : Client H T} {op : Op} {sent : List RequestMessage} {r : Except Error Unit}
    (h : op.run N codec opts c = .returns c' sent r) :
    sent.filter RequestMessage.isPeerMessage = if op.holdsPeers then sent else [] := by
  cases op with
  | connect =>
    simp only [Op.run, NativeClient.connect] at h
    repeat' split at h
    all_goals cases h; rfl
  | connectPeer k =>
    rcases NativeClient.connectPeer_returns h with ⟨rfl, -⟩ | ⟨-, -, -, -, -, -, -, -, -, rfl⟩ <;> rfl
  | relay k p encoding broadcast sessionId =>
    simp only [Op.run, NativeClient.relay] at h
    repeat' split at h
    all_goals cases h
    all_goals try rfl
    rename_i hs
    obtain ⟨t, t', c₀, -, -, -, rfl⟩ := encryptPeerChannel_ok hs
    rfl
  | request m =>
    simp only [Op.run, NativeClient.request] at h
    repeat' split at h
    all_goals cases h; try rfl
  | fail e => cases h; rfl

/-- A dispatch seals nothing on a peer channel, and sends something only for a message whose handler waits for
the registry lock (the responder half of a peer handshake). -/
theorem handleIncomingMessage_peerMessages {c c' : Client H T} {m : ResponseMessage} {sent : List RequestMessage}
    {r : Except Error (Option Event)} (h : EventLoop.handleIncomingMessage N codec opts c m = .returns c' sent r) :
    sent.filter RequestMessage.isPeerMessage = [] ∧ (sent = [] ∨ m.needsPeers = true) := by
  rcases EventLoop.handleIncomingMessage_returns h with ⟨len, buf, r', -, h', -⟩ | ⟨k, len, buf, rfl, h'⟩ |
    ⟨k, len, buf, r', -, h', -⟩ | ⟨k, sid, env, r', -, h', -⟩ | ⟨env, -, h'⟩
  · obtain ⟨rfl, -⟩ := EventLoop.serverHandshake_returns h'
    exact ⟨rfl, .inl rfl⟩
  · rcases EventLoop.peerHandshakeResponder_returns h' with ⟨-, -, -, -, -, rfl, -⟩ | ⟨-, rfl, -⟩
    · exact ⟨rfl, .inr rfl⟩
    · exact ⟨rfl, .inl rfl⟩
  · obtain ⟨rfl, -⟩ := EventLoop.peerHandshakeAck_returns h'
    exact ⟨rfl, .inl rfl⟩
  · obtain ⟨rfl, -⟩ := EventLoop.handleRelayedMessage_returns h'
    exact ⟨rfl, .inl rfl⟩
  · obtain ⟨rfl, -⟩ := EventLoop.handleServerMessage_returns h'
    exact ⟨rfl, .inl rfl⟩

/-! ### The invariant -/

/-- The registry lock and the peer envelopes in flight. -/
structure Sched.LockInv (s : Sched H T) : Prop where
  /-- At most one clone's task holds the lock, -/
  exclusive : Exclusive s.tasks
  /-- and none while the loop holds it. -/
  loop_exclusive : s.loop.holdsPeers = true → ∀ pc ∈ s.tasks, pc.holdsPeers = false
  /-- A task that does not hold the lock has no peer envelope left to send, -/
  unheld : ∀ pc ∈ s.tasks, pc.holdsPeers = false → pc.peerPending = []
  /-- nor has the loop. -/
  loop_pending : s.loop.pending.filter RequestMessage.isPeerMessage = []
  /-- The peer envelopes sealed: those taken or queued, in order, then those the holder has yet to send. -/
  sealed_eq : s.sealed.filter RequestMessage.isPeerMessage =
    (s.taken ++ s.outbound).filter RequestMessage.isPeerMessage ++ s.tasks.flatMap TaskPc.peerPending

theorem Sched.LockInv.start (c : Client H T) (clones : Nat) : (Sched.start c clones).LockInv where
  exclusive k k' pc pc' hk _ hp _ := by
    have hpc : pc ∈ (Sched.start c clones).tasks := List.mem_iff_getElem?.2 ⟨k, hk⟩
    simp only [Sched.start, List.mem_replicate] at hpc
    simp [hpc.2, TaskPc.holdsPeers] at hp
  loop_exclusive h := by cases h
  unheld pc hpc _ := by simp only [Sched.start, List.mem_replicate] at hpc; rw [hpc.2]; rfl
  loop_pending := rfl
  sealed_eq := by simp [Sched.start, TaskPc.peerPending, TaskPc.pending]

/-- With the tasks, the sealed envelopes and those bound for the socket as they were, and the loop holding
nothing, the invariant stays. -/
private theorem Sched.LockInv.of_frame {s s' : Sched H T} (hi : s.LockInv) (ht : s'.tasks = s.tasks)
    (hsealed : s'.sealed = s.sealed) (hout : s'.taken ++ s'.outbound = s.taken ++ s.outbound)
    (hl : s'.loop.holdsPeers = false) (hp : s'.loop.pending = []) : s'.LockInv where
  exclusive := ht ▸ hi.exclusive
  loop_exclusive h := by simp [hl] at h
  unheld := ht ▸ hi.unheld
  loop_pending := by simp [hp]
  sealed_eq := by rw [ht, hsealed, hout]; exact hi.sealed_eq

/-- A move of clone `i` to `a`, the loop left alone, keeps the invariant when `a` takes the lock only while no
other task holds it, has peer envelopes left to send only while it holds the lock, and the peer envelopes sealed
are still those sent followed by those in flight. -/
private theorem Sched.LockInv.of_task {s s' : Sched H T} {i : Nat} {a : TaskPc} (hi : s.LockInv) (hl : s'.loop = s.loop)
    (ht : s'.tasks = s.tasks.set i a)
    (ha : a.holdsPeers = true → s.loop.holdsPeers = false ∧
      ∀ k pc, k ≠ i → s.tasks[k]? = some pc → pc.holdsPeers = false)
    (hp : a.holdsPeers = false → a.peerPending = [])
    (hs : s'.sealed.filter RequestMessage.isPeerMessage =
      (s'.taken ++ s'.outbound).filter RequestMessage.isPeerMessage ++ (s.tasks.set i a).flatMap TaskPc.peerPending) :
    s'.LockInv where
  exclusive := ht ▸ exclusive_set hi.exclusive fun h => (ha h).2
  loop_exclusive hh pc hpc := by
    rw [hl] at hh
    rw [ht] at hpc
    rcases List.mem_or_eq_of_mem_set hpc with hpc | rfl
    · exact hi.loop_exclusive hh pc hpc
    · cases h : pc.holdsPeers
      · rfl
      · simp [(ha h).1] at hh
  unheld pc hpc := by
    rw [ht] at hpc
    rcases List.mem_or_eq_of_mem_set hpc with hpc | rfl
    · exact hi.unheld pc hpc
    · exact hp
  loop_pending := hl ▸ hi.loop_pending
  sealed_eq := ht ▸ hs

/-- A clone whose task holds the lock is its only holder. -/
private theorem Sched.LockInv.holder {s : Sched H T} {i : Nat} {pc : TaskPc} (hi : s.LockInv)
    (hti : s.tasks[i]? = some pc) (hh : pc.holdsPeers = true) :
    s.loop.holdsPeers = false ∧ ∀ k pc', k ≠ i → s.tasks[k]? = some pc' → pc'.holdsPeers = false := by
  refine ⟨?_, fun k pc' hk hpc' => ?_⟩
  · cases hc : s.loop.holdsPeers
    · rfl
    · simpa [hh] using hi.loop_exclusive hc pc (List.mem_iff_getElem?.2 ⟨i, hti⟩)
  · cases hc : pc'.holdsPeers
    · rfl
    · exact absurd (hi.exclusive k i pc' pc hpc' hti hc hh) hk

/-- While no clone but `i` holds the lock, only `i`'s peer envelopes are in flight, whatever it moves to. -/
private theorem Sched.LockInv.flatMap_set_of_others {s : Sched H T} {i : Nat} {a b : TaskPc} (hi : s.LockInv)
    (hb : s.tasks[i]? = some b) (ho : ∀ k pc, k ≠ i → s.tasks[k]? = some pc → pc.holdsPeers = false) :
    s.tasks.flatMap TaskPc.peerPending = b.peerPending ∧
      (s.tasks.set i a).flatMap TaskPc.peerPending = a.peerPending := by
  have hu : ∀ k pc, k ≠ i → s.tasks[k]? = some pc → pc.peerPending = [] := fun k pc hk hpc =>
    hi.unheld pc (List.mem_iff_getElem?.2 ⟨k, hpc⟩) (ho k pc hk hpc)
  refine ⟨flatMap_of_others hb hu,
    flatMap_of_others (List.getElem?_set_self (List.getElem?_eq_some_iff.1 hb).1) fun k pc hk hpc => ?_⟩
  rw [List.getElem?_set_ne (Ne.symm hk)] at hpc
  exact hu k pc hk hpc

/-! ### One move -/

/-- A clone that holds no lock and has nothing to send, before its move and after. -/
private theorem Sched.LockInv.set_idle {s : Sched H T} {i : Nat} {a b : TaskPc} (hi : s.LockInv)
    (hb : s.tasks[i]? = some b) (ha : a.holdsPeers = false) (hpa : a.peerPending = []) (hpb : b.peerPending = []) :
    ({ s with tasks := s.tasks.set i a } : Sched H T).LockInv :=
  hi.of_task rfl rfl (by simp [ha]) (fun _ => hpa) <| by
    simpa only [flatMap_set_of_eq (g := TaskPc.peerPending) hb (hpa.trans hpb.symm)] using hi.sealed_eq

/-- A clone's op that returns: an op that does not keep the lock seals nothing on a peer channel, and `relay`
takes the free lock and keeps it with its envelope. -/
private theorem Sched.LockInv.run {s : Sched H T} {i : Nat} {op : Op} {rest : List Op} {c : Client H T}
    {sent : List RequestMessage} {r : Except Error Unit} (hi : s.LockInv)
    (hti : s.tasks[i]? = some (.ready (op :: rest))) (hg : op.needsPeers = true → s.peersFree = true)
    (hr : op.run N codec opts s.client = .returns c sent r) :
    ({ s with client := c, sealed := s.sealed ++ sent,
              tasks := s.tasks.set i (.after sent op.holdsPeers r rest) } : Sched H T).LockInv := by
  have hsent := Op.run_peerMessages hr
  cases hh : op.holdsPeers
  · rw [hh, if_neg Bool.false_ne_true] at hsent
    refine hi.of_task rfl rfl (by simp) (fun _ => by simp [hsent]) ?_
    simpa only [flatMap_set_of_eq (g := TaskPc.peerPending) (a := .after sent false r rest) hti (by simp [hsent]),
      List.filter_append, hsent, List.append_nil] using hi.sealed_eq
  · rw [hh, if_pos rfl] at hsent
    have hn : op.needsPeers = true := by cases op <;> simp_all [Op.holdsPeers, Op.needsPeers]
    obtain ⟨hlf, htf⟩ := Sched.peersFree_eq_true.1 (hg hn)
    have ho : ∀ k pc, k ≠ i → s.tasks[k]? = some pc → pc.holdsPeers = false := fun k pc _ hk =>
      htf pc (List.mem_iff_getElem?.2 ⟨k, hk⟩)
    obtain ⟨hold, hnew⟩ := hi.flatMap_set_of_others (a := .after sent true r rest) hti ho
    refine hi.of_task rfl rfl (fun _ => ⟨hlf, ho⟩) (fun h => by simp_all) ?_
    simp only [hnew, List.filter_append, hi.sealed_eq, hold]
    simp [hsent]

/-- A clone's send: without the lock nothing it sends is a peer envelope; the holder's first envelope moves from
in flight to the outbound queue. -/
private theorem Sched.LockInv.send {s : Sched H T} {i : Nat} {req : RequestMessage} {pending : List RequestMessage}
    {held : Bool} {rest : List Op} (hi : s.LockInv) (hti : s.tasks[i]? = some (.sending (req :: pending) held rest)) :
    ({ s with outbound := s.outbound ++ [req],
              tasks := s.tasks.set i (.after pending held (.ok ()) rest) } : Sched H T).LockInv := by
  cases held
  · have hp := hi.unheld _ (List.mem_iff_getElem?.2 ⟨i, hti⟩) rfl
    simp only [TaskPc.peerPending_sending, List.filter_eq_nil_iff, List.mem_cons, forall_eq_or_imp] at hp
    have hpend : pending.filter RequestMessage.isPeerMessage = [] := List.filter_eq_nil_iff.2 hp.2
    refine hi.of_task rfl rfl (by simp) (fun _ => by simp [hpend]) ?_
    simp only [flatMap_set_of_eq (g := TaskPc.peerPending) (a := .after pending false (.ok ()) rest) hti
      (by simp [hpend, List.filter_cons, hp.1])]
    simp [hi.sealed_eq, hp.1]
  · obtain ⟨hlf, ho⟩ := hi.holder hti rfl
    obtain ⟨hold, hnew⟩ := hi.flatMap_set_of_others (a := .after pending true (.ok ()) rest) hti ho
    refine hi.of_task rfl rfl (fun _ => ⟨hlf, ho⟩) (fun h => by simp_all) ?_
    simp only [hnew, hi.sealed_eq, hold, TaskPc.peerPending_sending, TaskPc.peerPending_after, List.filter_cons,
      List.filter_append, List.filter_nil, List.append_assoc]
    split <;> rfl

/-- The responder's dispatch takes the free lock to send its reply, which is no peer envelope. -/
private theorem Sched.LockInv.dispatch {s : Sched H T} {m : ResponseMessage} {c : Client H T}
    {sent : List RequestMessage}
    {r : Except Error (Option Event)} (hi : s.LockInv) (hg : m.needsPeers = true → s.peersFree = true)
    (hne : sent ≠ []) (hd : EventLoop.handleIncomingMessage N codec opts s.client m = .returns c sent r) :
    ({ s with client := c, loop := .replying sent r, sealed := s.sealed ++ sent } : Sched H T).LockInv := by
  obtain ⟨hf, hs | hn⟩ := handleIncomingMessage_peerMessages hd
  · exact absurd hs hne
  · obtain ⟨-, hfree⟩ := Sched.peersFree_eq_true.1 (hg hn)
    exact ⟨hi.exclusive, fun _ => hfree, hi.unheld, hf, by simp [hi.sealed_eq, hf]⟩

/-- The responder's send, which is no peer envelope; it keeps the lock while it has more to send. -/
private theorem Sched.LockInv.reply {s : Sched H T} {req : RequestMessage} {pending : List RequestMessage}
    {r : Except Error (Option Event)} {loop : LoopPc} (hi : s.LockInv) (hl : s.loop = .replying (req :: pending) r)
    (hloop : loop = .select ∨ loop = .replying pending r) (events : List (Except Error Event)) :
    ({ s with outbound := s.outbound ++ [req], loop := loop, events := events } : Sched H T).LockInv := by
  have hp := hi.loop_pending
  simp only [hl, LoopPc.pending, List.filter_eq_nil_iff, List.mem_cons, forall_eq_or_imp] at hp
  refine ⟨hi.exclusive, fun _ => hi.loop_exclusive (by simp [hl, LoopPc.holdsPeers]), hi.unheld, ?_,
    by simp [hi.sealed_eq, hp.1]⟩
  rcases hloop with rfl | rfl
  · rfl
  · exact List.filter_eq_nil_iff.2 hp.2

theorem Sched.LockInv.step {s s' : Sched H T} {mv : Move} (hi : s.LockInv) (h : s.step N codec opts mv = some s') :
    s'.LockInv := by
  cases mv with
  | dispatch =>
    obtain ⟨m, -, hg, ⟨c, r, -, rfl⟩ | ⟨c, sent, r, hne, hd, rfl⟩ | ⟨msg, -, rfl⟩⟩ := Sched.step_dispatch_inv h
    · exact hi.of_frame rfl rfl rfl rfl rfl
    · exact hi.dispatch hg hne hd
    · exact hi.of_frame rfl rfl rfl rfl rfl
  | reply =>
    obtain ⟨req, pending, r, hl, -, ⟨-, rfl⟩ | rfl⟩ := Sched.step_reply_inv h
    · exact hi.reply hl (.inl rfl) _
    · exact hi.reply hl (.inr rfl) _
  | begin i call =>
    obtain ⟨hti, rfl⟩ := Sched.step_begin_inv h
    exact hi.set_idle hti (by simp) (by simp) rfl
  | run i =>
    obtain ⟨op, rest, hti, hg, ⟨c, sent, r, hr, rfl⟩ | ⟨msg, -, rfl⟩⟩ := Sched.step_run_inv h
    · exact hi.run hti hg hr
    · exact hi.set_idle hti rfl rfl rfl
  | send i =>
    obtain ⟨req, pending, held, rest, hti, -, rfl⟩ := Sched.step_send_inv h
    exact hi.send hti
  | _ =>
    obtain ⟨ht, hs, hwo, hl, -, hp⟩ := Sched.step_quiet h rfl (by simp) (by simp)
    exact hi.of_frame ht hs hwo hl hp

theorem Sched.Reachable.lockInv {s : Sched H T} (hs : s.Reachable N codec opts) : s.LockInv := by
  induction hs with
  | init clones _ => exact .start _ clones
  | step _ _ h ih => exact ih.step h

/-! ### Order -/

/-- The reference client `[1]` with two clones: clone `0` connects to the peer `[2]`, the loop writes the first
handshake message and dispatches the peer's answer; clone `1` relays a blob for `[2]`, whose write fails, then a
second blob, which waits on the outbound queue. -/
def referenceDropped : Sched Noise.Reference.Handshake Noise.Reference.Transport :=
  ((Sched.start (referenceStart 1).client 2).steps Noise.reference Codec.silent (referenceOptions 1)
    [.begin 0 (.connectPeer [2]), .run 0, .send 0, .write none,
      .receive (.transparent (.peerHandshake [2] (.responder 1 [2]))), .push, .take, .dispatch,
      .begin 1 (.sendBlob [2] [7] none), .run 1, .send 1, .write (some .codec),
      .begin 1 (.sendBlob [2] [8] none), .run 1, .send 1]).getD (Sched.start (referenceStart 1).client 2)

set_option maxRecDepth 20000 in
theorem reachable_referenceDropped :
    referenceDropped.Reachable Noise.reference Codec.silent (referenceOptions 1) :=
  @Sched.Reachable.steps _ _ Noise.reference Codec.silent (referenceOptions 1) _
    (@Sched.Reachable.init _ _ Noise.reference Codec.silent (referenceOptions 1) _ 101 "" 2 rfl)
    [.begin 0 (.connectPeer [2]), .run 0, .send 0, .write none,
      .receive (.transparent (.peerHandshake [2] (.responder 1 [2]))), .push, .take, .dispatch,
      .begin 1 (.sendBlob [2] [7] none), .run 1, .send 1, .write (some .codec),
      .begin 1 (.sendBlob [2] [8] none), .run 1, .send 1] _ rfl

/-- Every request sealed is, exactly once, taken off the outbound queue, queued, or still to be sent by its
task. -/
def Sched.Conserved (s : Sched H T) : Prop :=
  s.sealed.Perm (s.taken ++ s.outbound ++ s.tasks.flatMap TaskPc.pending ++ s.loop.pending)

theorem Sched.conserved_iff {s : Sched H T} : s.Conserved ↔ ∀ x, s.sealed.count x =
    s.taken.count x + s.outbound.count x + (s.tasks.flatMap TaskPc.pending).count x + s.loop.pending.count x := by
  simp only [Sched.Conserved, List.perm_iff_count, List.count_append]

theorem Sched.Conserved.step {s s' : Sched H T} {mv : Move} (hc : s.Conserved)
    (h : s.step N codec opts mv = some s') : s'.Conserved := by
  rw [Sched.conserved_iff] at hc ⊢
  intro x
  have hx := hc x
  cases mv with
  | dispatch =>
    obtain ⟨m, hl, -, ⟨c, r, -, rfl⟩ | ⟨c, sent, r, -, -, rfl⟩ | ⟨msg, -, rfl⟩⟩ := Sched.step_dispatch_inv h <;>
      simp only [hl, Sched.taken, LoopPc.pending, List.count_append, List.count_nil, Nat.add_zero] at hx ⊢ <;> omega
  | reply =>
    obtain ⟨req, pending, r, hl, -, ⟨rfl, rfl⟩ | rfl⟩ := Sched.step_reply_inv h <;>
      simp only [hl, Sched.taken, LoopPc.pending, List.count_append, List.count_cons, List.count_nil,
        beq_iff_eq] at hx ⊢ <;>
      omega
  | begin i call =>
    obtain ⟨hti, rfl⟩ := Sched.step_begin_inv h
    have := count_flatMap_set (g := TaskPc.pending) (a := .resume call.ops) x hti
    simp only [Sched.taken, TaskPc.pending_idle, TaskPc.pending_resume, List.count_nil, Nat.add_zero] at hx this ⊢
    omega
  | run i =>
    obtain ⟨op, rest, hti, -, ⟨c, sent, r, -, rfl⟩ | ⟨msg, -, rfl⟩⟩ := Sched.step_run_inv h
    · have := count_flatMap_set (g := TaskPc.pending) (a := .after sent op.holdsPeers r rest) x hti
      simp only [Sched.taken, TaskPc.pending_ready, TaskPc.pending_after, List.count_append, List.count_nil,
        Nat.add_zero] at hx this ⊢
      omega
    · have := count_flatMap_set (g := TaskPc.pending) (a := .panicked msg) x hti
      simp only [Sched.taken, TaskPc.pending_ready, TaskPc.pending_panicked, List.count_nil] at hx this ⊢
      omega
  | send i =>
    obtain ⟨req, pending, held, rest, hti, -, rfl⟩ := Sched.step_send_inv h
    have := count_flatMap_set (g := TaskPc.pending) (a := .after pending held (.ok ()) rest) x hti
    simp only [Sched.taken, TaskPc.pending_sending, TaskPc.pending_after, List.count_append, List.count_cons,
      List.count_nil, beq_iff_eq] at hx this ⊢
    omega
  | _ =>
    obtain ⟨ht, hs, hwo, -, hp, hp'⟩ := Sched.step_quiet h rfl (by simp) (by simp)
    have hwo' := congrArg (List.count x) hwo
    simp only [List.count_append] at hwo'
    simp only [ht, hs, hp, hp', List.count_nil] at hx ⊢
    omega

theorem Sched.Reachable.conserved {s : Sched H T} (hs : s.Reachable N codec opts) : s.Conserved := by
  induction hs with
  | init clones _ => simp [Sched.Conserved, Sched.start, TaskPc.pending, LoopPc.pending]
  | step _ _ h ih => exact ih.step h

/-- A move keeps the errors of the failed writes on the event stream, in order. -/
private theorem Sched.writeErrors_step {s s' : Sched H T} {mv : Move} (hr : s.writeErrors.Sublist s.events)
    (h : s.step N codec opts mv = some s') : s'.writeErrors.Sublist s'.events := by
  cases mv
  case write failure =>
    simp only [Sched.step] at h
    split at h
    · cases failure <;> cases h <;> simpa [Sched.writeErrors] using hr
    · cases h
  all_goals
    obtain ⟨hl, he⟩ := Sched.step_sendLog h (by simp)
    rw [Sched.writeErrors, hl]
    exact hr.trans he.sublist

theorem Sched.Reachable.writeErrors {s : Sched H T} (hs : s.Reachable N codec opts) :
    s.writeErrors.Sublist s.events := by
  induction hs with
  | init clones _ => simp [Sched.writeErrors, Sched.start]
  | step _ _ h ih => exact Sched.writeErrors_step ih h

end RelayClient
