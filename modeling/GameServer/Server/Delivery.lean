import GameServer.Library.Prefix
import GameServer.Server.Framing
import GameServer.Server.ThreadSteps

/-!
# What net logic passes on

Net logic is the only thread between net IO and the game services, in both directions. It pops a
node, and the nodes that it pushes before its next turn are what it makes of that node. What it has
sent, or has still to push, follows its pops; the queues before and behind it are first in, first
out. Here the broadcasts of each game service are followed to net IO.

## Main definitions

* `netLogicSent` : what net logic has pushed or has still to push.
* `NetLogicPop` : what a step is to net logic.
* `Carries` : what net logic makes of a broadcast.

## Main results

* `ThreadsStep.netLogicPop` : every step is a `NetLogicPop`.
* `broadcasts_in_order` : the broadcasts of each game service reach net IO once and in order.
-/

namespace GameServer

/-! ### The part of net logic -/

/-- The nodes that a thread pushes, in order. -/
def pushedBy (t : Thread) (os : List ThreadsOut) : List QueNode :=
  os.filterMap fun
    | .pushed node => if node.producer = t then some node else none
    | _ => none

/-- The nodes that are still to be pushed. -/
def pendingPushes (acts : List Act) : List QueNode :=
  acts.filterMap fun
    | .push node => some node
    | .wake _ => none

/-- What net logic has pushed or has still to push. -/
def netLogicSent (os : List ThreadsOut) (s : Threads) : List QueNode :=
  pushedBy .netLogic os ++ pendingPushes (s.todo .netLogic)

theorem pushedBy_append (t : Thread) (os os' : List ThreadsOut) :
    pushedBy t (os ++ os') = pushedBy t os ++ pushedBy t os' := List.filterMap_append

theorem pushedBy_pushed (t : Thread) (node : QueNode) :
    pushedBy t [.pushed node] = if node.producer = t then [node] else [] := by
  by_cases ht : node.producer = t <;> simp [pushedBy, ht]

/-- Nodes of one queue and one thread are read alike from the pushes of either. -/
theorem filterMap_pushes {α : Type*} {f : QueNode → Option α} {q : QueId} {t : Thread}
    (h : ∀ node, f node ≠ none → node.que = q ∧ node.producer = t) (os : List ThreadsOut) :
    (pushes q os).filterMap f = (pushedBy t os).filterMap f := by
  induction os with
  | nil => rfl
  | cons o os ih =>
    rw [← List.singleton_append, pushes_append, pushedBy_append, List.filterMap_append,
      List.filterMap_append, ih]
    congr 1
    cases o with
    | popped | read => rfl
    | pushed node =>
      rw [pushes_pushed, pushedBy_pushed]
      by_cases hnode : f node = none
      · split_ifs <;> simp [hnode]
      · rw [if_pos (h node hnode).1, if_pos (h node hnode).2]

/-- What a step is to net logic: nothing, the handling of a message of net IO, or the handling of a
broadcast. -/
inductive NetLogicPop (P : Protobuf) (s s' : Threads) (os out : List ThreadsOut) : Prop
  | none (hio : pops .netio2Netlogic out = []) (hgame : pops .gamelogic2Netlogic out = [])
      (hrouter : s'.router = s.router) (hsent : netLogicSent (os ++ out) s' = netLogicSent os s)
  | message (msg : IoMsg) (conn : ℕ) (r : Router) (nout : List NetOut) (acts : List Act)
      (hio : pops .netio2Netlogic out = [.netio2Netlogic msg conn])
      (hgame : pops .gamelogic2Netlogic out = [])
      (hroute : RouteStep P s.router msg r nout)
      (hacts : nout.mapM (NetOut.act conn Option.none) = .ok acts) (hrouter : s'.router = r)
      (hsent : netLogicSent (os ++ out) s' = netLogicSent os s ++ pendingPushes acts)
  | broadcast (b : Broadcast) (g : ServiceId) (rsp : List UInt8) (rspSize : ℤ)
      (hio : pops .netio2Netlogic out = [])
      (hgame : pops .gamelogic2Netlogic out = [.gamelogic2Netlogic b g])
      (hpack : rspDataPack P b.protoType b.buffer = .ok (rsp, rspSize))
      (hrouter : s'.router = s.router)
      (hsent : netLogicSent (os ++ out) s' =
        netLogicSent os s ++ [.netlogic2Netio (.broadcast rspSize b.uidList rsp) (some g)])

section NetLogicPop

variable {P : Protobuf} {K : Sockets} {s s' : Threads} {i : ThreadsIn} {os out : List ThreadsOut}

/-- Steps of the other threads do not add to what net logic has sent. -/
theorem netLogicSent_eq (htodo : s'.todo .netLogic = s.todo .netLogic)
    (hout : pushedBy .netLogic out = []) : netLogicSent (os ++ out) s' = netLogicSent os s := by
  rw [netLogicSent, netLogicSent, pushedBy_append, hout, List.append_nil, htodo]

theorem netLogicSent_other {t : Thread} {acts : List Act} (ht : t ≠ .netLogic)
    (htodo : s'.todo = (s.setTodo t acts).todo) (hout : pushedBy .netLogic out = []) :
    netLogicSent (os ++ out) s' = netLogicSent os s := by
  refine netLogicSent_eq ?_ hout
  rw [htodo, Threads.setTodo_of_ne _ (Ne.symm ht)]

/-- A write that is over adds nothing to what has been sent. -/
theorem netLogicSent_wake {t : Thread} {w : Wire} {rest : List Act}
    (hdo : s.todo t = .wake w :: rest) (htodo : s'.todo = (s.setTodo t rest).todo)
    (hout : pushedBy .netLogic out = []) : netLogicSent (os ++ out) s' = netLogicSent os s := by
  by_cases ht : t = .netLogic
  · subst ht
    rw [netLogicSent, netLogicSent, pushedBy_append, hout, List.append_nil, htodo,
      Threads.setTodo_self, hdo]
    rfl
  · exact netLogicSent_other ht htodo hout

/-- A pop of net logic, which had nothing to do. -/
theorem netLogicSent_pop {acts : List Act} (hidle : s.todo .netLogic = [])
    (htodo : s'.todo = (s.setTodo .netLogic acts).todo) (hout : pushedBy .netLogic out = []) :
    netLogicSent (os ++ out) s' = netLogicSent os s ++ pendingPushes acts := by
  have hnil : pendingPushes (s.todo .netLogic) = [] := by
    rw [hidle]
    rfl
  rw [netLogicSent, netLogicSent, pushedBy_append, hout, List.append_nil, htodo,
    Threads.setTodo_self, hnil, List.append_nil]

/-- **Inversion.** Every step is a `NetLogicPop`. -/
theorem ThreadsStep.netLogicPop (hinv : ThreadsInv s) (hstep : ThreadsStep P K s i s' out)
    (os : List ThreadsOut) : NetLogicPop P s s' os out := by
  have hgame {g : ServiceId} : Thread.game g ≠ .netLogic := by simp
  have hio : Thread.netIo ≠ .netLogic := by simp
  cases hstep with
  | waits | netIoSlept | netLogicSlept | gameSlept =>
    exact .none rfl rfl rfl (netLogicSent_eq rfl rfl)
  | netIoWoken | gameWoken => exact .none rfl rfl rfl (netLogicSent_eq rfl rfl)
  | @pushed i node rest hdo =>
    refine .none (pops_pushed _ _) (pops_pushed _ _) rfl ?_
    obtain ⟨w, rest', rfl, hnode, -⟩ := hinv.of_push hdo
    by_cases ht : i.thread = .netLogic
    · rw [ht] at hdo hnode
      rw [netLogicSent, netLogicSent, pushedBy_append, pushedBy_pushed, if_pos hnode, ht, hdo]
      simp only [Threads.setTodo_self, List.append_assoc]
      rfl
    · refine netLogicSent_other ht rfl ?_
      rw [pushedBy_pushed, if_neg (hnode ▸ ht)]
  | wrote i hdo | failed i hdo => exact .none rfl rfl rfl (netLogicSent_wake hdo rfl rfl)
  | netIoReported => exact .none rfl rfl rfl (netLogicSent_other hio rfl rfl)
  | netIoPopped => exact .none rfl rfl rfl (netLogicSent_other hio rfl rfl)
  | routed t hidle hflag hque hpop hroute hacts =>
    exact .message _ _ _ _ _ rfl rfl hroute hacts rfl
      (netLogicSent_pop hidle rfl rfl)
  | packed t hidle hflag hque hpop hpack =>
    exact .broadcast _ _ _ _ rfl rfl hpack rfl
      (netLogicSent_pop hidle rfl rfl)
  | dropped t hidle hflag hunused =>
    -- net logic never drains a queue for an entry that is not in use
    obtain ⟨w, hw, -⟩ := hinv.current hflag
    rw [hunused] at hw
    cases hw
  | netLogicWoken t n hidle hflag hflag' hentry hout =>
    rcases hout with rfl | rfl <;> exact .none rfl rfl rfl (netLogicSent_eq rfl rfl)
  | handled => exact .none rfl rfl rfl (netLogicSent_other hgame rfl rfl)

end NetLogicPop

/-! ### From the game services to net IO -/

/-- The broadcast of a node that the game service `g` has pushed. -/
def QueNode.emittedBy (g : ServiceId) : QueNode → Option Broadcast
  | .gamelogic2Netlogic b origin => if origin = g then some b else none
  | _ => none

/-- The node for `broadcast_user_msg` that goes back to the game service `g`. -/
def QueNode.broadcastOf (g : ServiceId) : QueNode → Option NetIoNode
  | .netlogic2Netio (.broadcast size uidList buffer) origin =>
    if origin = some g then some (.broadcast size uidList buffer) else none
  | _ => none

/-- What the game service `g` has emitted. -/
def emitted (g : ServiceId) (os : List ThreadsOut) : List Broadcast :=
  (pushes .gamelogic2Netlogic os).filterMap (QueNode.emittedBy g)

/-- What has reached `broadcast_user_msg` of the messages of the game service `g`. -/
def reached (g : ServiceId) (os : List ThreadsOut) : List NetIoNode :=
  (pops .netlogic2Netio os).filterMap (QueNode.broadcastOf g)

/-- The node carries the frame of the message, which has the type of its own structure, to its
recipients. -/
def Carries (P : Protobuf) (b : Broadcast) (node : NetIoNode) : Prop :=
  b.buffer.descriptor = b.protoType ∧
    node = .broadcast (b.frame P).length b.uidList (b.frame P)

/-- What net logic has sent for `g` carries what it has popped of `g`. -/
def CarriesPopped (P : Protobuf) (g : ServiceId) (os : List ThreadsOut) (s : Threads) : Prop :=
  List.Forall₂ (Carries P) ((pops .gamelogic2Netlogic os).filterMap (QueNode.emittedBy g))
    ((netLogicSent os s).filterMap (QueNode.broadcastOf g))

theorem broadcastOf_ne_none {g : ServiceId} {node : QueNode}
    (h : QueNode.broadcastOf g node ≠ none) :
    node.que = .netlogic2Netio ∧ node.producer = .netLogic := by
  cases node with
  | netlogic2Netio => exact ⟨rfl, rfl⟩
  | netio2Netlogic | netlogic2Game | gamelogic2Netlogic => exact absurd rfl h

/-- Nothing that net logic makes of a message of net IO goes back to a game service. -/
theorem RouteStep.broadcastOf_eq_nil {P : Protobuf} {r r' : Router} {msg : IoMsg}
    {out : List NetOut} {conn : ℕ} {acts : List Act} (h : RouteStep P r msg r' out) (hr : r.Wired)
    (hacts : out.mapM (NetOut.act conn none) = .ok acts) (g : ServiceId) :
    (pendingPushes acts).filterMap (QueNode.broadcastOf g) = [] := by
  rcases h.acts_cases hr hacts with rfl | rfl | ⟨g', m, -, -, rfl⟩ <;> rfl

/-- **Step lemma.** -/
theorem CarriesPopped.step {P : Protobuf} {g : ServiceId} {os out : List ThreadsOut}
    {s s' : Threads} (h : CarriesPopped P g os s) (hinv : ThreadsInv s)
    (hpop : NetLogicPop P s s' os out) : CarriesPopped P g (os ++ out) s' := by
  unfold CarriesPopped at h ⊢
  rw [pops_append, List.filterMap_append]
  cases hpop with
  | none hio hgame hrouter hsent => simpa [hgame, hsent] using h
  | message msg conn r nout acts hio hgame hroute hacts hrouter hsent =>
    rw [hgame, hsent, List.filterMap_append, hroute.broadcastOf_eq_nil hinv.wired hacts]
    simpa using h
  | broadcast b g' rsp rspSize hio hgame hpack hrouter hsent =>
    rw [hgame, hsent, List.filterMap_append]
    refine List.rel_append h ?_
    by_cases hg : g' = g
    · subst hg
      obtain ⟨hty, rfl, rfl⟩ := rspDataPack_eq_ok.mp hpack
      have hb : List.filterMap (QueNode.emittedBy g') [.gamelogic2Netlogic b g'] = [b] :=
        List.filterMap_cons_some (if_pos rfl)
      have hnode : List.filterMap (QueNode.broadcastOf g') [.netlogic2Netio
          (.broadcast (b.frame P).length b.uidList (b.frame P)) (some g')] =
          [.broadcast (b.frame P).length b.uidList (b.frame P)] :=
        List.filterMap_cons_some (if_pos rfl)
      rw [hb, hnode]
      exact .cons ⟨hty, rfl⟩ .nil
    · simp [QueNode.emittedBy, QueNode.broadcastOf, hg]

/-- **The broadcasts of each game service reach net IO once and in order.** In every interleaving
of the threads, what has reached `broadcast_user_msg` of the messages of a game service carries, in
order, a prefix of the messages that the service has emitted; it is the whole when both queues are
empty and net logic has nothing to push. The queues start empty, which
`message_que_creat` does not ensure. -/
theorem broadcasts_in_order {P : Protobuf} {K : Sockets} {u : Unset} {is : List ThreadsIn}
    {os : List ThreadsOut} {s : Threads}
    (hrun : (threadsMachine P K).Exec Machine.any (Threads.start u) is os s) (g : ServiceId) :
    ∃ done rest, emitted g os = done ++ rest ∧ List.Forall₂ (Carries P) done (reached g os) ∧
      (s.queue .gamelogic2Netlogic = [] → s.queue .netlogic2Netio = [] → s.todo .netLogic = [] →
        rest = []) := by
  have hcarries : ThreadsInv s ∧ CarriesPopped P g os s := by
    refine hrun.invariant_outputs (P := fun os s => ThreadsInv s ∧ CarriesPopped P g os s)
      ⟨.start u, .nil⟩ ?_
    rintro os s i s' out ⟨hinv, h⟩ - hstep
    have hs := threadsMachine_step hstep
    exact ⟨hinv.step hs, h.step hinv (hs.netLogicPop hinv os)⟩
  have hpopped := hcarries.2
  rw [CarriesPopped, netLogicSent, List.filterMap_append,
    ← filterMap_pushes (fun _ => broadcastOf_ne_none), queues_fifo hrun, List.filterMap_append,
    List.append_assoc] at hpopped
  obtain ⟨done, rest, heq, hdone, hall⟩ := hpopped.exists_prefix
  refine ⟨done, rest ++ (s.queue .gamelogic2Netlogic).filterMap (QueNode.emittedBy g), ?_, hdone,
    fun hgame hio hidle => ?_⟩
  · rw [emitted, queues_fifo hrun, List.filterMap_append, heq, List.append_assoc]
  · rw [hgame, hall (by rw [hio, hidle]; rfl)]
    rfl

/-- Sockets that hold more bytes than clients fit into a game service. -/
def roomySockets : Sockets := .established (fun _ => 256) fun _ => Nat.succ_pos 255

/-- The clients 3 to 202 connect, which fills the game service 0; the client 203 connects and asks
to start. -/
def crowdThenStart : List (IoMsg × ℕ) :=
  (List.range 200).map (fun i => (.success (Fin.ofNat maxSocket (i + 3)), 1)) ++
    [(.success 203, 1), (.data 203 3 ['S'.toUInt8, 8, 1], 1)]

/-- Net IO reports these messages. The game service 1 handles those of the client 203, net logic
passes the answers on and net IO sends them. -/
def startBehindCrowd : List ThreadsIn :=
  [.netIo ⟨oneEvent maxEvent_pos 5, fun _ => .connectAdd, 0, crowdThenStart⟩] ++
    List.replicate 404 (.netIo ⟨none, fun _ => .invalid, 0, []⟩) ++
    [.netLogic ⟨oneEvent maxService_pos 0, 512⟩] ++
    List.replicate 607 (.netLogic ⟨none, 0⟩) ++ List.replicate 8 (.game 1 512) ++
    [.netLogic ⟨oneEvent maxService_pos 5, 512⟩] ++ List.replicate 6 (.netLogic ⟨none, 0⟩) ++
    [.netIo ⟨oneEvent maxEvent_pos 7, fun _ => .netlogic, 64, []⟩] ++
    List.replicate 2 (.netIo ⟨none, fun _ => .invalid, 0, []⟩)

/-- The queues on the way of the client 203, there and back. -/
def wayThereAndBack : List QueId :=
  [.netio2Netlogic, .netlogic2Game 1, .gamelogic2Netlogic, .netlogic2Netio]

/-- The threads take these steps. At the end nothing is on its way. -/
theorem exists_start_behind_crowd : ∃ s os,
    (threadsMachine oneByteProtobuf roomySockets).Exec Machine.any (Threads.start .zero)
      startBehindCrowd os s ∧
    (pushes .netio2Netlogic os = crowdThenStart.map (fun p => .netio2Netlogic p.1 p.2) ∧
      pops (.netlogic2Game 1) os = [.netlogic2Game 1 (.success 203) 1,
        .netlogic2Game 1 (.data 203 (.gameStartReq (some ⟨true⟩))) 1]) ∧
    (emitted 1 os).map (fun b => b.protoType) = [.newEnemy, .gameStartRsp] ∧
    (∀ q ∈ wayThereAndBack, s.queue q = []) ∧ s.todo .netLogic = [] := by
  have hrun : ((threadsMachine oneByteProtobuf roomySockets).run Machine.any
      (Threads.start .zero) startBehindCrowd).map
      (fun p => ((pushes .netio2Netlogic p.2, pops (.netlogic2Game 1) p.2),
        (emitted 1 p.2).map (fun b => b.protoType),
        decide (∀ q ∈ wayThereAndBack, p.1.queue q = []), p.1.todo .netLogic)) =
      some ((crowdThenStart.map (fun p => .netio2Netlogic p.1 p.2),
        [.netlogic2Game 1 (.success 203) 1,
          .netlogic2Game 1 (.data 203 (.gameStartReq (some ⟨true⟩))) 1]),
        [.newEnemy, .gameStartRsp], true, []) := by
    decide +kernel
  obtain ⟨s, os, hrun, hobs⟩ := Machine.exec_of_run_map _ hrun
  simp only [Prod.mk.injEq, decide_eq_true_eq] at hobs
  exact ⟨s, os, hrun, hobs⟩

/-- Both messages that the game service 1 emits for the client 203 reach net IO. -/
theorem broadcasts_in_order_run : ∃ s os,
    (threadsMachine oneByteProtobuf roomySockets).Exec Machine.any (Threads.start .zero)
      startBehindCrowd os s ∧
    (emitted 1 os).map (fun b => b.protoType) = [.newEnemy, .gameStartRsp] ∧
    List.Forall₂ (Carries oneByteProtobuf) (emitted 1 os) (reached 1 os) := by
  obtain ⟨s, os, hrun, -, hemitted, hqueues, hidle⟩ := exists_start_behind_crowd
  obtain ⟨done, rest, heq, hdone, hall⟩ := broadcasts_in_order hrun 1
  have hrest := hall (hqueues _ (by decide)) (hqueues _ (by decide)) hidle
  rw [hrest, List.append_nil] at heq
  exact ⟨s, os, hrun, hemitted, heq ▸ hdone⟩

end GameServer
