import GameServer.Configure
import GameServer.Game.UnsetSlots
import GameServer.Queue.LockQueue

/-!
# What the server makes of memory that it has not set

`malloc` returns memory with some contents, a `Filling`, and the server does not set all of it.
`message_que_creat` sets nothing of the queues, where `queue_creat` sets both ends and the lock.
`configure_load` sets the fields whose keys the file assigns, and `game_logic_creat` the marks of
the player slots.

## Main definitions

* `messageQueCreat`, `Filling`.
* `SameBehaviour` : two fillings that the server does not tell apart.

## Main results

* `messageQueCreat_empty_iff` : the queues are empty only where `malloc` has left them so.
* `behaviour_by_filling` : which fillings the server tells apart.
-/

namespace GameServer

/-- `MESSAGE_QUEUE_NUM`. -/
abbrev messageQueueNum : ℕ := 8

/-- The memory of a `queue`: its ends, and the bytes of its lock. -/
structure QueueMem extends Queue where
  lock : List UInt8
deriving DecidableEq, Repr

/-- `message_que_creat`: the pool is what `malloc` returns. -/
def messageQueCreat (quePool : Option (Fin messageQueueNum → QueueMem)) :
    Option (Fin messageQueueNum → QueueMem) :=
  match quePool with
  | none => none
  | some pool => some pool

/-- A queue of the pool is an empty queue only where its memory is what `queue_creat` writes. -/
theorem messageQueCreat_empty_iff {μ β : Type} (heap : NodeHeap μ β)
    (pool : Fin messageQueueNum → QueueMem) (q : Fin messageQueueNum) :
    (∀ pool' ∈ messageQueCreat (some pool), QueueShape heap (pool' q).toQueue []) ↔
      (pool q).toQueue = queueCreat := by
  simp only [messageQueCreat, Option.mem_def, Option.some.injEq, forall_eq']
  constructor
  · intro h
    obtain ⟨hchain, htail, -⟩ := h
    rw [Chain.nil_iff] at hchain
    rw [queueCreat, Queue.mk.injEq]
    exact ⟨hchain, htail⟩
  · intro h
    rw [h]
    exact ⟨Chain.nil_iff.mpr rfl, rfl, nofun⟩

/-- What the memory holds that `malloc` returns for the queues, for the `configure`, and for the
player slots of a game service. -/
structure Filling where
  quePool : Fin messageQueueNum → QueueMem
  configure : Configure
  mapPlayer : MapId → SlotId → Player

/-- Memory that holds `b` everywhere; the null pointer is 0. -/
def Filling.filled (b : UInt8) : Filling where
  quePool _ := ⟨if b = 0 then queueCreat else ⟨some b.toNat, some b.toNat⟩, [b]⟩
  configure := Configure.filled b
  mapPlayer _ _ := ⟨.typeInvalid, b.toNat, b.toNat, [b], b.toNat, b.toNat⟩

/-- With both fillings the queues are the same, the `configure` loaded from `file` is read the
same, and a game service sends the same for the messages `is`. -/
structure SameBehaviour (file : Option (List UInt8)) (is : List GameMsg) (M M' : Filling) :
    Prop where
  queues : messageQueCreat (some M'.quePool) = messageQueCreat (some M.quePool)
  configure : (configureLoad file (some M'.configure)).map (Option.map Configure.value) =
    (configureLoad file (some M.configure)).map (Option.map Configure.value)
  emitted : gameMachine.outputs (gameLogicCreat M'.mapPlayer) is =
    gameMachine.outputs (gameLogicCreat M.mapPlayer) is

theorem messageQueCreat_inj {pool pool' : Fin messageQueueNum → QueueMem} :
    messageQueCreat (some pool') = messageQueCreat (some pool) ↔ pool' = pool :=
  Option.some_inj

/-- **What the server makes of the contents of its memory.** Fillings that differ in the queues
are always told apart, and there are such. Fillings that agree there are never told apart exactly
if the config file assigns every key and the game service only shows slots that have been logged
in to. -/
theorem behaviour_by_filling (file : Option (List UInt8)) (is : List GameMsg) :
    (¬∀ M M', SameBehaviour file is M M') ∧
    (∀ M M', SameBehaviour file is M M' → M'.quePool = M.quePool) ∧
    ((∀ M M', M'.quePool = M.quePool → SameBehaviour file is M M') ↔
      AssignsAll file ∧ ∀ heap, avatarMachine.Meets ShowsSigned (avatarStart heap) is) := by
  have hqueues (M M' : Filling) (h : SameBehaviour file is M M') : M'.quePool = M.quePool :=
    messageQueCreat_inj.mp h.queues
  refine ⟨fun hall => ?_, hqueues, ⟨fun hsame => ⟨?_, ?_⟩, ?_⟩⟩
  · have heq := congrFun (hqueues _ _ (hall (Filling.filled 0) (Filling.filled 1))) 0
    exact absurd heq (by decide)
  · refine (configureLoad_same_iff file).mp fun conf conf' => ?_
    exact (hsame ⟨(Filling.filled 0).quePool, conf, zeroHeap⟩
      ⟨(Filling.filled 0).quePool, conf', zeroHeap⟩ rfl).configure
  · refine (outputs_same_iff is).mp fun heap heap' => ?_
    exact (hsame ⟨(Filling.filled 0).quePool, Configure.filled 0, heap⟩
      ⟨(Filling.filled 0).quePool, Configure.filled 0, heap'⟩ rfl).emitted
  · rintro ⟨hassigns, hmeets⟩ M M' hpool
    exact ⟨messageQueCreat_inj.mpr hpool, (configureLoad_same_iff file).mpr hassigns _ _,
      (outputs_same_iff is).mpr hmeets _ _⟩

/-- A config file without the line for the port of the router. -/
def portOnlyFile : List UInt8 :=
  "service_address=127.0.0.1\nservice_port=8000\n".toList.map Char.toUInt8

/-- Memory of zeros and of ones: the queues differ, the port of the router that the config file
leaves out differs, and so does what is sent for a client that moves without having logged in. -/
theorem filling_shows :
    messageQueCreat (some (Filling.filled 1).quePool) ≠
      messageQueCreat (some (Filling.filled 0).quePool) ∧
    (configureLoad (some portOnlyFile) (some (Filling.filled 0).configure)).map
        (Option.map Configure.serviceRoutePort) = .ok (some 0) ∧
    (configureLoad (some portOnlyFile) (some (Filling.filled 1).configure)).map
        (Option.map Configure.serviceRoutePort) = .ok (some 1) ∧
    gameMachine.outputs (gameLogicCreat (Filling.filled 0).mapPlayer)
        [.success 3, .data 3 (.moveReq (some ⟨2⟩))] = [⟨0, [], .enemyMsg, .enemyMsg 0 0 0⟩] ∧
    gameMachine.outputs (gameLogicCreat (Filling.filled 1).mapPlayer)
        [.success 3, .data 3 (.moveReq (some ⟨2⟩))] = [⟨0, [], .enemyMsg, .enemyMsg 1 2 1⟩] ∧
    ¬SameBehaviour (some portOnlyFile) [.success 3, .data 3 (.moveReq (some ⟨2⟩))]
      (Filling.filled 0) (Filling.filled 1) := by
  have hqueues : messageQueCreat (some (Filling.filled 1).quePool) ≠
      messageQueCreat (some (Filling.filled 0).quePool) := by
    decide
  refine ⟨hqueues, ?_, ?_, ?_, ?_, fun h => hqueues h.queues⟩
  · decide +kernel
  · decide +kernel
  · decide +kernel
  · decide +kernel

end GameServer
