import GameServer.Game.Pictures
import GameServer.Library.Lockstep
import GameServer.Server.Refinement

/-!
# The threads keep the clients in rooms

The levels of the server put together. The threads refine the services that handle each message in
one step. The services, which share the table of entries, run as four single services do, as long
as the messages of each uid are handled in order and no login is told of a player of another
service. A single service is members in rooms, as long as its clients keep to the intended session
and closes are in order. So what the thread of a game service sends, in whatever order the threads
take their steps, is what the members are told who do what the messages say that it has popped.

## Main definitions

* `Threads.sent` : what the thread of a game service has sent or has still to send.

## Main results

* `threads_are_presence` : the thread of a game service keeps its clients in rooms.
-/

namespace GameServer

open Presence

/-! ### From the tables to the view -/

/-- A run of a game service is one in which the started players and the missed ones are recorded. -/
theorem viewMachine_exec_of_game {heap : MapId → SlotId → Player} {is : List GameMsg}
    {os : List Broadcast} {gl : GameLogic}
    (hrun : gameMachine.Exec Machine.any (gameLogicCreat heap) is os gl) :
    ∃ v, viewMachine.Exec Machine.any (viewStart heap) is os v ∧ v.1.gl = gl := by
  induction hrun with
  | init => exact ⟨viewStart heap, .init, rfl⟩
  | @next is os gl msg gl' out _ _ hstep ih =>
    obtain ⟨v, hexec, rfl⟩ := ih
    have hsession : sessionMachine.step v.1 msg = .ok (⟨gl', v.1.record msg⟩, out) :=
      sessionMachine_step_eq_ok.mpr ⟨hstep, rfl⟩
    exact ⟨⟨⟨gl', v.1.record msg⟩, recordMissed v.1 v.2 msg⟩,
      hexec.next trivial (Machine.withGhost_step_eq_ok.mpr ⟨hsession, rfl⟩), rfl⟩

/-- A registered uid has its entry in the table that the services share. -/
theorem OwnEntries.entry_of_registered {s : Owned} {g : ServiceId} {e : Uid → PlayerId} {u : Uid}
    (h : OwnEntries s g e) (hu : ((s.services.game g).withEntries e).Registered u) :
    e u = s.services.uid2Playid u := by
  by_cases howner : s.owner u = some g
  · exact h.own u howner
  · cases (h.free u howner).symm.trans hu

/-! ### The threads -/

/-- The broadcasts that the thread of a game service has sent or has still to send. -/
def Threads.sent (s : Threads) (g : ServiceId) (os : List ThreadsOut) : List Broadcast :=
  (sentBy (.game g) os s).filterMap (QueNode.emittedBy g)

/-- **The threads keep the clients in rooms.** In every interleaving of the threads in which the
messages of each uid are handled in order and no login is told of a player of another service, a
game service whose clients keep to the intended session and whose closes are in order has the state
of members who entered their maps, looked around, joined in, moved and left, over the entries of its
own clients in the table that all share; and its thread sends every client what those members are
told. -/
theorem threads_are_presence {P : Protobuf} {K : Sockets} {u : Unset} {is : List ThreadsIn}
    {os : List ThreadsOut} {s : Threads} {g : ServiceId}
    (hrun : (threadsMachine P K).Exec Machine.any (Threads.start u) is os s)
    (hapart : (handledMachine P).Meets HandledApart
      (ownedStart u.heap (fun g => g.val) u.gameServiceId) (os.filterMap ThreadsOut.turn))
    (hses : IntendedSession (os.filterMap (ThreadsOut.handledBy g)))
    (hclose : viewMachine.Meets (fun v => ClosesInOrder v.1) (viewStart (u.heap g))
      (os.filterMap (ThreadsOut.handledBy g))) :
    ∃ v e notes, viewMachine.Exec (fun v => ClosesInOrder v.1) (viewStart (u.heap g))
        (os.filterMap (ThreadsOut.handledBy g)) (s.sent g os) v ∧
      v.1.gl = (s.game g).withEntries e ∧
      (∀ w, v.1.gl.Registered w → e w = s.uid2Playid w) ∧
      Presence.Run (State.empty fun _ => (0, 0))
        (v.1.presence (os.filterMap (ThreadsOut.handledBy g))) notes (fun w x => v.2 w x = true) ∧
      ∀ w, noticesTo w (s.sent g os) = (notes w).map (Notice.map Uid.toInt) := by
  obtain ⟨h, ⟨sv, owner⟩, hexec, -, hservices, hread, hwrote⟩ :=
    (threads_carryOut P K).exec hrun (.start u)
  obtain rfl : sv = s.services := hservices
  obtain ⟨-, e, hown, halone⟩ := alone_of_run (hexec.of_meets hapart) g
  rw [hread, hwrote] at halone
  obtain ⟨v, hview, hgl⟩ := viewMachine_exec_of_game halone
  have hrooms := hview.of_meets hclose
  obtain ⟨-, notes, hpresence, hnotes⟩ := presence_of_run hses hrooms
  refine ⟨v, e, notes, hrooms, hgl, fun w hw => ?_, hpresence, hnotes⟩
  rw [hgl] at hw
  exact hown.entry_of_registered hw

/-- Client 3 starts and client 4 logs in; their game service has still to push what it has for
client 4. -/
theorem threads_are_presence_run : ∃ is os s, ∃ v : Tracked × (Uid → Uid → Bool), ∃ notes,
    (threadsMachine oneByteProtobuf (.established (fun _ => 8) fun _ => Nat.succ_pos 7)).Exec
      Machine.any (Threads.start .zero) is os s ∧
    os.filterMap (ThreadsOut.handledBy 0) = [.success 3, .data 3 (.logReq (some ⟨[98]⟩)),
      .data 3 (.gameStartReq (some ⟨true⟩)), .success 4, .data 4 (.logReq (some ⟨[98]⟩))] ∧
    Presence.Run (State.empty fun _ => (0, 0))
      (v.1.presence (os.filterMap (ThreadsOut.handledBy 0))) notes (fun w x => v.2 w x = true) ∧
    noticesTo 4 (s.sent 0 os) = (notes 4).map (Notice.map Uid.toInt) ∧
    noticesTo 4 (s.sent 0 os) = [.fresh, .present (Uid.toInt 3) (0, 0)] ∧
    (s.todo (.game 0)).length = 6 := by
  have hrun : ((threadsMachine oneByteProtobuf
      (.established (fun _ => 8) fun _ => Nat.succ_pos 7)).run Machine.any (Threads.start .zero)
      ([.netIo ⟨oneEvent maxEvent_pos 5, fun _ => .connectAdd, 0,
          [(.success 3, 1), (.data 3 4 ['L'.toUInt8, 10, 1, 98], 1),
            (.data 3 3 ['S'.toUInt8, 8, 1], 1), (.success 4, 2),
            (.data 4 4 ['L'.toUInt8, 10, 1, 98], 2)]⟩] ++
        List.replicate 10 (.netIo ⟨none, fun _ => .invalid, 0, []⟩) ++
        [.netLogic ⟨oneEvent maxService_pos 0, 512⟩] ++
        List.replicate 14 (.netLogic ⟨none, 0⟩) ++ List.replicate 14 (.game 0 512))).map
      (fun p => ((p.2.filterMap ThreadsOut.turn, p.2.filterMap (ThreadsOut.handledBy 0)),
        (noticesTo 4 (p.1.sent 0 p.2), (p.1.todo (.game 0)).length))) =
      some (([.netIo (.success 3), .netIo (.data 3 4 ['L'.toUInt8, 10, 1, 98]),
          .netIo (.data 3 3 ['S'.toUInt8, 8, 1]), .netIo (.success 4),
          .netIo (.data 4 4 ['L'.toUInt8, 10, 1, 98]), .game 0, .game 0, .game 0, .game 0, .game 0],
        [.success 3, .data 3 (.logReq (some ⟨[98]⟩)), .data 3 (.gameStartReq (some ⟨true⟩)),
          .success 4, .data 4 (.logReq (some ⟨[98]⟩))]),
        ([.fresh, .present (Uid.toInt 3) (0, 0)], 6)) := by
    decide +kernel
  have happart : ((handledMachine oneByteProtobuf).run HandledApart
      (ownedStart Unset.zero.heap (fun g => g.val) Unset.zero.gameServiceId)
      [.netIo (.success 3), .netIo (.data 3 4 ['L'.toUInt8, 10, 1, 98]),
        .netIo (.data 3 3 ['S'.toUInt8, 8, 1]), .netIo (.success 4),
        .netIo (.data 4 4 ['L'.toUInt8, 10, 1, 98]), .game 0, .game 0, .game 0, .game 0,
        .game 0]).map (fun _ => ()) = some () := by
    decide +kernel
  have hinorder : (viewMachine.run (fun v => ClosesInOrder v.1) (viewStart (Unset.zero.heap 0))
      [.success 3, .data 3 (.logReq (some ⟨[98]⟩)), .data 3 (.gameStartReq (some ⟨true⟩)),
        .success 4, .data 4 (.logReq (some ⟨[98]⟩))]).map (fun _ => ()) = some () := by
    decide +kernel
  obtain ⟨s, os, hrun, hobs⟩ := Machine.exec_of_run_map _ hrun
  obtain ⟨hmsgs, hsent⟩ := Prod.mk.inj hobs
  obtain ⟨hturns, hhandled⟩ := Prod.mk.inj hmsgs
  obtain ⟨htold, htodo⟩ := Prod.mk.inj hsent
  obtain ⟨_, _, happart, -⟩ := Machine.exec_of_run_map _ happart
  obtain ⟨_, _, hinorder, -⟩ := Machine.exec_of_run_map _ hinorder
  obtain ⟨v, e, notes, -, -, -, hpresence, hnotes⟩ := threads_are_presence (g := 0) hrun
    (hturns ▸ happart.meets) (hhandled ▸ by decide) (hhandled ▸ hinorder.meets)
  exact ⟨_, os, s, v, notes, hrun, hhandled, hpresence, hnotes 4, htold, htodo⟩

end GameServer
