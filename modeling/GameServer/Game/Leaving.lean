import GameServer.Game.ListedPlayers

/-!
# Leave requests

The comments of `dispose_leave_request` and of its call list what a leave request is for: the
broadcast list is rebuilt, the player is removed, the client gets its reply, and the other players
of the map are told. The handler sends the reply. The rest is done by the close that follows, as
for a client that has not asked to leave.

## Main definitions

* `LeavesGame` : what a leave request is for.

## Main results

* `leave_requests_keep_tables` : a run reaches the same tables without its leave requests.
* `leave_request_only_replies` : no leave request does what it is for.
-/

namespace GameServer

/-- The message is a leave request. -/
def GameMsg.IsLeave : GameMsg → Prop
  | .data _ (.leaveReq _) => True
  | _ => False

instance : DecidablePred GameMsg.IsLeave
  | .data _ (.leaveReq _) => .isTrue trivial
  | .data _ (.logReq _) | .data _ (.heroMsgReq _) | .data _ (.gameStartReq _)
  | .data _ (.moveReq _) | .data _ (.other _) | .close _ | .success _ => .isFalse id

/-- A leave request of a registered client is answered, and that is all. -/
theorem leaveReq_eq {gl : GameLogic} {uid : Uid} (h : gl.Registered uid) (data : Option MoveReq) :
    disposeQueueEvent gl (.data uid (.leaveReq data)) =
      .ok (gl, leaveRspSend (gl.playerOf uid) true) :=
  disposeQueueEvent_eq_ok.mpr (.leave uid data h)

/-- A leave request changes no table. -/
theorem leaveReq_state {gl gl' : GameLogic} {msg : GameMsg} {out : List Broadcast}
    (hleave : msg.IsLeave) (h : disposeQueueEvent gl msg = .ok (gl', out)) : gl' = gl := by
  unfold GameMsg.IsLeave at hleave
  split at hleave
  · cases disposeQueueEvent_step h with
    | ignored | leave => rfl
  · exact hleave.elim

/-- **Leave requests leave no trace.** Whatever the clients do, the tables are those that the same
messages without the leave requests lead to. -/
theorem leave_requests_keep_tables {ok : GameLogic → GameMsg → Prop} {gl₀ gl : GameLogic}
    {is : List GameMsg} {os : List Broadcast} (hrun : gameMachine.Exec ok gl₀ is os gl) :
    ∃ os', gameMachine.Exec ok gl₀ (is.filter fun msg => ¬msg.IsLeave) os' gl ∧ os'.Sublist os := by
  refine hrun.filter fun gl msg gl' out hleave hstep => leaveReq_state ?_ hstep
  simpa only [decide_not, Bool.not_eq_false', decide_eq_true_eq] using hleave

/-- How often `v` is told that `uid` has left. -/
def leavesTold (out : List Broadcast) (uid v : Uid) : ℕ :=
  ((out.filter fun b => b.buffer = .enemyLeave uid.toInt).flatMap Broadcast.uidList).count v.toInt

/-- A leave request takes its player out of the game: the client gets its reply, is registered no
more and off the list of its map, every other started player of the map is told once, and a close
that follows finds nothing to do. -/
def LeavesGame (t : Tracked) (uid : Uid) (data : Option MoveReq) : Prop :=
  ∃ gl' out, disposeQueueEvent t.gl (.data uid (.leaveReq data)) = .ok (gl', out) ∧
    ⟨1, [uid.toInt], .leaveRsp, .leaveRsp true⟩ ∈ out ∧
    ¬gl'.Registered uid ∧ uid ∉ gl'.recipients (t.gl.mapOf uid) ∧
    (∀ v ∈ t.startedIn (t.gl.mapOf uid), v ≠ uid → leavesTold out uid v = 1) ∧
    disposeQueueEvent gl' (.close uid) = .ok (gl', [])

theorem not_leavesGame {t : Tracked} {uid : Uid} (h : t.gl.Registered uid)
    (data : Option MoveReq) : ¬LeavesGame t uid data := by
  have hleave : (GameMsg.data uid (.leaveReq data)).IsLeave := trivial
  rintro ⟨gl', out, hstep, -, hgone, -⟩
  rw [leaveReq_state hleave hstep] at hgone
  exact hgone h

/-- **A leave request only gets its reply.** In every state that the service reaches, the leave
request of a started player changes no table and tells nobody else. So it never takes the player
out of the game, and the close that follows removes the player and announces it as if there had
been no request. -/
theorem leave_request_only_replies {heap : MapId → SlotId → Player} {is : List GameMsg}
    {os : List Broadcast} {t : Tracked} {uid : Uid}
    (hrun : sessionMachine.Exec Machine.any (Tracked.init heap) is os t)
    (hstarted : uid ∈ t.started) (data : Option MoveReq) :
    ¬LeavesGame t uid data ∧
    disposeQueueEvent t.gl (.data uid (.leaveReq data)) =
      .ok (t.gl, leaveRspSend (t.gl.playerOf uid) true) ∧
    ∃ gl' b, disposeQueueEvent t.gl (.close uid) = .ok (gl', [b]) ∧ ¬gl'.Registered uid ∧
      b.protoType = .enemyLeave := by
  have hinv := SessionInv.exec hrun
  have hreg := hinv.registered uid hstarted
  refine ⟨not_leavesGame hreg data, leaveReq_eq hreg data, ?_⟩
  have hle : t.gl.mapPlayerNum (t.gl.mapOf uid) ≤ maxPlayerEachMap := by
    refine hrun.invariant (P := fun t => ∀ m, t.gl.mapPlayerNum m ≤ (maxPlayerEachMap : ℤ))
      (fun _ => by simp [Tracked.init, gameLogicCreat]) ?_ _
    intro t msg t' out h _ hstep m
    exact (disposeQueueEvent_step (sessionMachine_step_eq_ok.mp hstep).1).mapPlayerNum_le h m
  obtain ⟨l, -, hclose⟩ := hinv.tables.disposeUserClose_eq hreg hle
  refine ⟨_, _, hclose, ?_, rfl⟩
  simp [GameLogic.Registered, GameLogic.unregister, GameLogic.dropEntry]

/-- A client starts and asks to leave. -/
theorem leave_request_only_replies_started : ∃ t os,
    sessionMachine.Exec Machine.any (Tracked.init zeroHeap)
      [.success 3, .data 3 (.logReq (some ⟨[]⟩)), .data 3 (.gameStartReq (some ⟨true⟩))] os t ∧
    disposeQueueEvent t.gl (.data 3 (.leaveReq (some ⟨0⟩))) =
      .ok (t.gl, leaveRspSend (t.gl.playerOf 3) true) := by
  have hrun : (sessionMachine.run Machine.any (Tracked.init zeroHeap)
      [.success 3, .data 3 (.logReq (some ⟨[]⟩)), .data 3 (.gameStartReq (some ⟨true⟩))]).map
      (fun p => decide (3 ∈ p.1.started)) = some true := by
    decide +kernel
  obtain ⟨t, os, hrun, hstarted⟩ := sessionMachine.exec_of_run_map hrun
  exact ⟨t, os, hrun,
    (leave_request_only_replies hrun (of_decide_eq_true hstarted) (some ⟨0⟩)).2.1⟩

/-- Two clients start, and one of them asks to leave: it stays registered, and the other one is told
nothing. -/
theorem leave_request_leaves_nobody : ∃ t os,
    sessionMachine.Exec Machine.any (Tracked.init zeroHeap)
      [.success 3, .success 4, .data 3 (.logReq (some ⟨[]⟩)), .data 4 (.logReq (some ⟨[]⟩)),
        .data 3 (.gameStartReq (some ⟨true⟩)), .data 4 (.gameStartReq (some ⟨true⟩))] os t ∧
    3 ∈ t.started ∧ ¬LeavesGame t 3 (some ⟨0⟩) := by
  have hrun : (sessionMachine.run Machine.any (Tracked.init zeroHeap)
      [.success 3, .success 4, .data 3 (.logReq (some ⟨[]⟩)), .data 4 (.logReq (some ⟨[]⟩)),
        .data 3 (.gameStartReq (some ⟨true⟩)), .data 4 (.gameStartReq (some ⟨true⟩))]).map
      (fun p => (decide (3 ∈ p.1.started), decide (p.1.gl.Registered 3))) = some (true, true) := by
    decide +kernel
  obtain ⟨t, os, hrun, hobs⟩ := sessionMachine.exec_of_run_map hrun
  obtain ⟨hstarted, hreg⟩ := Prod.mk.inj hobs
  exact ⟨t, os, hrun, of_decide_eq_true hstarted, not_leavesGame (of_decide_eq_true hreg) _⟩

end GameServer
