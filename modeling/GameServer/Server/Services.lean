import GameServer.Game.Steps
import GameServer.Library.MergedQueues
import GameServer.Net.Routes

/-!
# Net logic and the game services

`main` starts one net logic service and `GAME_LOGIC_SERVICE_NUM` game services, and gives all game
services the same `uid_2_playid` table. Each game service has a queue that net logic fills; the
four queues are kept in one list in the order of the pushes, and the queue of a service is its
part of that list. Every step is the handling of one message by one service.

## Main definitions

* `Services` : net logic, the game services, their table and their queues.
* `Services.receive`, `Services.handle` : a step of net logic, a step of a game service.

## Main results

* `Services.receive_eq_ok`, `Services.handle_eq_ok` : these steps in terms of the steps of the
  single services.
-/

namespace GameServer

/-- The messages pushed to the queue of a game service. -/
def NetOut.toGame : NetOut → Option (ServiceId × GameMsg)
  | .pushGame (.netlogic2Game g) msg => some (g, msg)
  | _ => none

/-- The nodes pushed to the queue of net IO. -/
def NetOut.toNetIo : NetOut → Option NetIoNode
  | .pushNetIo node => some node
  | _ => none

/-- Net logic and the game services. The entry table of `gameLogic` is not used: the services
share `uid2Playid`. -/
structure Services where
  router : Router
  gameLogic : ServiceId → GameLogic
  uid2Playid : Uid → PlayerId
  waiting : List (ServiceId × GameMsg)

namespace Services

/-- The services that `main` starts, over what `malloc` returned to each of them. -/
def start (heap : ServiceId → MapId → SlotId → Player) (gamelogSocket : ServiceId → ℤ)
    (gameServiceId : ℤ) : Services where
  router := routerCreat gamelogSocket gameServiceId
  gameLogic g := gameLogicCreat (heap g)
  uid2Playid _ := ⟨.typeInvalid, 0, 0⟩
  waiting := []

/-- The tables that a game service works on. -/
def game (sv : Services) (g : ServiceId) : GameLogic :=
  { sv.gameLogic g with uid2Playid := sv.uid2Playid }

/-- The message that the game service `g` handles next. -/
def next (sv : Services) (g : ServiceId) : Option GameMsg :=
  (MergedQueues.pop Prod.fst g sv.waiting).map fun p => p.1.2

/-- Net logic handles a message of net IO. -/
def receive (P : Protobuf) (sv : Services) (msg : IoMsg) :
    Except Fault (Services × List NetIoNode) := do
  let (r, out) ← disposeNetioServiceQue P sv.router msg
  .ok ({ sv with router := r, waiting := sv.waiting ++ out.filterMap NetOut.toGame },
    out.filterMap NetOut.toNetIo)

/-- The game service `g` has reached the tables `gl`, and `rest` is waiting. -/
def setGame (sv : Services) (g : ServiceId) (gl : GameLogic) (rest : List (ServiceId × GameMsg)) :
    Services :=
  { sv with
    gameLogic := Function.update sv.gameLogic g gl
    uid2Playid := gl.uid2Playid
    waiting := rest }

/-- The game service `g` handles the next message of its queue, if there is one. -/
def handle (sv : Services) (g : ServiceId) : Except Fault (Services × List Broadcast) :=
  match MergedQueues.pop Prod.fst g sv.waiting with
  | none => .ok (sv, [])
  | some ((_, msg), rest) => do
    let (gl, out) ← disposeQueueEvent (sv.game g) msg
    .ok (sv.setGame g gl rest, out)

variable {P : Protobuf} {sv sv' : Services}

/-- **Inversion.** A message handled by net logic is one of its steps. -/
theorem receive_eq_ok {msg : IoMsg} {nodes : List NetIoNode}
    (h : sv.receive P msg = .ok (sv', nodes)) :
    ∃ r out, RouteStep P sv.router msg r out ∧ nodes = out.filterMap NetOut.toNetIo ∧
      sv' = { sv with router := r, waiting := sv.waiting ++ out.filterMap NetOut.toGame } := by
  obtain ⟨⟨r, out⟩, hstep, h⟩ := Except.bind_eq_ok_iff.mp h
  obtain ⟨rfl, rfl⟩ := Prod.mk.inj (Except.ok.inj h)
  exact ⟨r, out, disposeNetioServiceQue_step hstep, rfl, rfl⟩

/-- **Inversion.** A game service with an empty queue does nothing; else it takes the first
message of its queue and makes one of its steps. -/
theorem handle_eq_ok {g : ServiceId} {out : List Broadcast} (h : sv.handle g = .ok (sv', out)) :
    (sv.next g = none ∧ sv' = sv ∧ out = []) ∨
    ∃ msg rest gl, MergedQueues.pop Prod.fst g sv.waiting = some ((g, msg), rest) ∧
      sv.next g = some msg ∧ GameStep (sv.game g) msg gl out ∧ sv' = sv.setGame g gl rest := by
  unfold handle at h
  cases hpop : MergedQueues.pop Prod.fst g sv.waiting with
  | none =>
    rw [hpop] at h
    obtain ⟨rfl, rfl⟩ := Prod.mk.inj (Except.ok.inj h)
    exact Or.inl ⟨by rw [next, hpop, Option.map_none], rfl, rfl⟩
  | some p =>
    obtain ⟨⟨g', msg⟩, rest⟩ := p
    obtain rfl : g' = g := (MergedQueues.pop_eq_some hpop).1
    rw [hpop] at h
    obtain ⟨⟨gl, out'⟩, hstep, h⟩ := Except.bind_eq_ok_iff.mp h
    obtain ⟨rfl, rfl⟩ := Prod.mk.inj (Except.ok.inj h)
    exact Or.inr ⟨msg, rest, gl, rfl, by rw [next, hpop, Option.map_some],
      disposeQueueEvent_step hstep, rfl⟩

/-- A game service fails on the next message of its queue. -/
theorem handle_eq_error {g : ServiceId} {e : Fault} : sv.handle g = .error e ↔
    ∃ msg, sv.next g = some msg ∧ disposeQueueEvent (sv.game g) msg = .error e := by
  unfold handle next
  cases hpop : MergedQueues.pop Prod.fst g sv.waiting with
  | none => simp only [Option.map_none, reduceCtorEq, false_and, exists_false]
  | some p =>
    simp only [Option.map_some, Option.some.injEq, exists_eq_left', Except.bind_eq_error_iff,
      reduceCtorEq, and_false, exists_false, or_false]

end Services

/-- The messages to a game service that a `sendsTo` pushes. -/
@[simp] theorem Router.sendsTo_toGame {r : Router} (hque : r.que2Gamelogic = .netlogic2Game)
    (g : ServiceId) (msg : GameMsg) :
    (r.sendsTo g msg).filterMap NetOut.toGame = [(g, msg)] := by
  simp only [Router.sendsTo, hque, List.filterMap_cons, NetOut.toGame, List.filterMap_nil]

@[simp] theorem Router.sendsTo_toNetIo (r : Router) (g : ServiceId) (msg : GameMsg) :
    (r.sendsTo g msg).filterMap NetOut.toNetIo = [] := by
  simp only [Router.sendsTo, List.filterMap_cons, NetOut.toNetIo, List.filterMap_nil]

@[simp] theorem reportServiceFull_toGame (uid : Uid) :
    (reportServiceFull uid).filterMap NetOut.toGame = [] := rfl

/-- What net logic and the game services do next: net logic handles a message of net IO, or a game
service handles the next message of its queue. -/
inductive ServicesIn
  | netIo (msg : IoMsg)
  | game (g : ServiceId)
deriving DecidableEq, Repr

end GameServer
