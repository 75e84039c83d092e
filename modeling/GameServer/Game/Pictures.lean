import GameServer.Game.Avatars
import GameServer.Game.Recipients
import GameServer.Library.Presence

/-!
# What the clients know of each other

The messages of a game service are there to show its clients the other players of their map. While
the clients keep to the intended session and closes are in order, a game service is an instance of
`Presence`: a registration enters a room, a login looks around in it, a start joins in. A client
pictures the others from the messages that are addressed to it, and its picture is exact, except
for those whose start, move or close fell between its login and its start and who have done nothing
since.

## Main definitions

* `Rsp.notice?`, `noticesTo` : what the messages to a client tell it of the others.
* `Tracked.presence` : a game service as rooms with members.
* `viewMachine` : the game service, with who has missed whom recorded.

## Main results

* `game_service_is_presence` : every intended run is a run of the members in their rooms.
* `pictures_exact` : what a client that has logged in knows of the others.
-/

namespace GameServer

open Presence

/-! ### What the messages tell -/

/-- What a response tells its recipients of the other players; a login opens a new picture. -/
def Rsp.notice? : Rsp → Option (Notice ℤ (ℤ × ℤ))
  | .loginRsp _ _ _ _ _ => some .fresh
  | .enemyMsg uid pointX pointY => some (.present uid (pointX, pointY))
  | .newEnemy uid pointX pointY => some (.present uid (pointX, pointY))
  | .enemyLeave uid => some (.gone uid)
  | .startRsp _ | .loginEnd _ | .leaveRsp _ | .moveRsp _ _ _ _ => none

/-- What the messages tell the client `u`, in their order. -/
def noticesTo (u : Uid) (out : List Broadcast) : List (Notice ℤ (ℤ × ℤ)) :=
  out.filterMap fun b => if u.toInt ∈ b.uidList then b.buffer.notice? else none

/-- What the client `u` knows of the others after the messages. -/
def clientPicture (u : Uid) (out : List Broadcast) : ℤ → Option (ℤ × ℤ) :=
  picture (noticesTo u out)

theorem noticesTo_append (u : Uid) (out out' : List Broadcast) :
    noticesTo u (out ++ out') = noticesTo u out ++ noticesTo u out' :=
  List.filterMap_append

/-- A broadcast to a map tells its recipients. -/
theorem noticesTo_toMap (u : Uid) (gl : GameLogic) (m : MapId) (ty : RspType) (rsp : Rsp) :
    noticesTo u [toMap gl m ty rsp] = if u ∈ gl.recipients m then rsp.notice?.toList else [] := by
  have hmem : u.toInt ∈ (gl.recipients m).map Uid.toInt ↔ u ∈ gl.recipients m := by
    simp only [List.mem_map, Uid.toInt_inj, exists_eq_right]
  simp only [noticesTo, toMap, List.filterMap_cons, List.filterMap_nil, hmem]
  split_ifs
  · cases rsp.notice? <;> rfl
  · rfl

/-- A message to one client tells nobody else. -/
theorem noticesTo_single (u uid : Uid) (ty : RspType) (rsp : Rsp) :
    noticesTo u [⟨1, [uid.toInt], ty, rsp⟩] = if u = uid then rsp.notice?.toList else [] := by
  have hmem : u.toInt ∈ [uid.toInt] ↔ u = uid := by
    simp only [List.mem_singleton, Uid.toInt_inj]
  simp only [noticesTo, List.filterMap_cons, List.filterMap_nil, hmem]
  split_ifs
  · cases rsp.notice? <;> rfl
  · rfl

theorem noticesTo_enemyMsgTo (u uid : Uid) (gl : GameLogic) (es : List Uid) :
    noticesTo u (es.map (enemyMsgTo gl uid)) =
      if u = uid then
        es.map fun e => .present e.toInt ((gl.playerOf e).pointX, (gl.playerOf e).pointY)
      else [] := by
  induction es with
  | nil => simp only [List.map_nil, noticesTo, List.filterMap_nil, ite_self]
  | cons e es ih =>
    rw [List.map_cons, ← List.singleton_append, noticesTo_append, ih, enemyMsgTo, noticesTo_single]
    split_ifs <;> rfl

/-- The replies to a login tell its client of the players listed. -/
theorem noticesTo_loginReplies (u : Uid) (gl : GameLogic) (uid : Uid) :
    noticesTo u (loginReplies gl uid) =
      if u = uid then
        .fresh :: (gl.recipients (gl.mapOf uid)).map fun e =>
          .present e.toInt ((gl.playerOf e).pointX, (gl.playerOf e).pointY)
      else [] := by
  rw [loginReplies, noticesTo_append, noticesTo_append, noticesTo_single, noticesTo_single,
    noticesTo_enemyMsgTo]
  split_ifs
  · simp only [Rsp.notice?, Option.toList_some, Option.toList_none, List.append_nil,
      List.singleton_append]
  · rfl

/-! ### A game service as rooms with members -/

/-- Whether a client has logged in since it was registered. -/
def LoggedIn (t : Tracked) (is : List GameMsg) (u : Uid) : Prop :=
  t.gl.Registered u ∧ (phaseAfter u is = some .loggedIn ∨ phaseAfter u is = some .started)

/-- A game service after the messages `is`: the map of a client is its room. -/
def Tracked.presence (t : Tracked) (is : List GameMsg) : Presence.State Uid MapId (ℤ × ℤ) where
  room u := if t.gl.Registered u then some (t.gl.mapOf u) else none
  place u :=
    if t.gl.Registered u then ((t.gl.playerOf u).pointX, (t.gl.playerOf u).pointY) else (0, 0)
  seen := LoggedIn t is
  playing u := u ∈ t.started

/-- What holds after the messages of intended sessions with closes in order. -/
structure IntendedInv (t : Tracked) (is : List GameMsg) : Prop where
  session : SessionInv t
  counter : CounterExact t
  exact : t.RecipientsExact
  phase : PhaseInv t is
  named : ∀ u, LoggedIn t is u → (t.gl.playerOf u).uid = u.toInt

section Step

variable {t t' : Tracked} {is : List GameMsg} {msg : GameMsg} {out : List Broadcast} {u : Uid}

/-- A message of another client leaves a client as it is. -/
theorem Tracked.presence_sameAt (is : List GameMsg) (h : SessionInv t)
    (hstep : sessionMachine.step t msg = .ok (t', out)) (hu : u ≠ msg.uid) :
    (t'.presence (is ++ [msg])).SameAt (t.presence is) u := by
  obtain ⟨hgl, hrecord⟩ := sessionMachine_step_eq_ok.mp hstep
  have hgl := disposeQueueEvent_step hgl
  have hentry := hgl.entry_of_ne hu
  have hreg : t'.gl.Registered u ↔ t.gl.Registered u := by
    simp only [GameLogic.Registered, hentry]
  have hphase : phaseAfter u (is ++ [msg]) = phaseAfter u is := sessionAfter_append_of_ne hu
  refine ⟨?_, ?_, ?_, ?_⟩
  · simp only [Tracked.presence, hreg, GameLogic.mapOf, hentry]
  · simp only [Tracked.presence, hreg]
    split_ifs with hr
    · obtain ⟨-, -, havatar⟩ :=
        Player.contents_eq_iff.mp (h.tables.playerOf_contents_of_ne hgl hr hu)
      obtain ⟨hx, hy, -⟩ := Avatar.mk.inj havatar
      rw [hx, hy]
    · rfl
  · simp only [Tracked.presence, LoggedIn, hreg, hphase]
  · simp only [Tracked.presence, hrecord, Tracked.mem_record_of_ne hu]

/-- Two states agree when they agree about the client of the message and the others are as they
were. -/
theorem Tracked.presence_eq (h : SessionInv t)
    (hstep : sessionMachine.step t msg = .ok (t', out))
    {s : Presence.State Uid MapId (ℤ × ℤ)}
    (hself : (t'.presence (is ++ [msg])).SameAt s msg.uid)
    (hother : ∀ w, w ≠ msg.uid → (t.presence is).SameAt s w) : t'.presence (is ++ [msg]) = s := by
  refine Presence.State.eq_of_sameAt fun w => ?_
  by_cases hw : w = msg.uid
  · subst hw
    exact hself
  · have h₁ := Tracked.presence_sameAt is h hstep hw
    have h₂ := hother w hw
    exact ⟨h₁.room.trans h₂.room, h₁.place.trans h₂.place, h₁.seen.trans h₂.seen,
      h₁.playing.trans h₂.playing⟩

theorem Tracked.presence_in_iff (h : SessionInv t) {m : MapId} :
    (t.presence is).In m u ↔ u ∈ t.startedIn m := by
  simp only [Presence.State.In, Tracked.presence, Tracked.mem_startedIn]
  refine and_congr_right fun hu => ?_
  simp only [h.registered u hu, if_true, Option.some.injEq, true_and]

theorem IntendedInv.init (heap : MapId → SlotId → Player) : IntendedInv (Tracked.init heap) [] where
  session := SessionInv.init heap
  counter := counterExact_init heap
  exact _ := ⟨List.nodup_nil, rfl⟩
  phase := PhaseInv.init heap
  named u hu := by simp [Tracked.init, GameLogic.Registered, gameLogicCreat, LoggedIn] at hu

/-- What a message of an intended session does: its client has no slot before and after, or it is
where its session says. -/
inductive IntendedStep (t : Tracked) (is : List GameMsg) :
    GameMsg → Tracked → List Broadcast → Prop
  | unserved {msg : GameMsg} {t' : Tracked} (hreg : ¬t.gl.Registered msg.uid)
      (hreg' : ¬t'.gl.Registered msg.uid) : IntendedStep t is msg t' []
  | waits {uid} (hphase : phaseAfter uid is = some .loggedIn) :
      IntendedStep t is (.data uid (.gameStartReq (some ⟨false⟩))) t []
  | registers {uid} {t' : Tracked} (hreg : ¬t.gl.Registered uid)
      (hreg' : t'.gl.Registered uid) (hphase : phaseAfter uid is = some .away) :
      IntendedStep t is (.success uid) t' []
  | login {uid req} (hreg : t.gl.Registered uid) (hphase : phaseAfter uid is = some .connected) :
      IntendedStep t is (.data uid (.logReq (some req))) ⟨t.gl.login uid req, t.started⟩
        (loginReplies (t.gl.login uid req) uid)
  | start {uid} (hreg : t.gl.Registered uid) (hphase : phaseAfter uid is = some .loggedIn) :
      IntendedStep t is (.data uid (.gameStartReq (some ⟨true⟩))) (t.afterStart uid)
        [toMap t.gl (t.gl.mapOf uid) .newEnemy (.newEnemy (t.gl.playerOf uid).uid
            (t.gl.playerOf uid).pointX (t.gl.playerOf uid).pointY),
          ⟨1, [uid.toInt], .gameStartRsp, .startRsp true⟩]
  | move {uid req} (hreg : t.gl.Registered uid) (hphase : phaseAfter uid is = some .started) :
      IntendedStep t is (.data uid (.moveReq (some req))) ⟨t.gl.move uid req, t.started⟩
        [toMap t.gl (t.gl.mapOf uid) .enemyMsg
          (.enemyMsg (movePlayer (t.gl.playerOf uid) req.move).uid
            (movePlayer (t.gl.playerOf uid) req.move).pointX
            (movePlayer (t.gl.playerOf uid) req.move).pointY)]
  | close {uid l} (hreg : t.gl.Registered uid) (hphase : phaseAfter uid is = some .started) :
      IntendedStep t is (.close uid) (t.afterClose uid l)
        [toMap (t.afterClose uid l).gl (t.gl.mapOf uid) .enemyLeave
          (.enemyLeave (t.gl.playerOf uid).uid)]

/-- **Inversion.** -/
theorem IntendedInv.cases_step (h : IntendedInv t is) (hses : IntendedSession (is ++ [msg]))
    (hstep : sessionMachine.step t msg = .ok (t', out)) : IntendedStep t is msg t' out := by
  obtain ⟨p, p', hp, hnext, -⟩ : ∃ p p', phaseAfter msg.uid is = some p ∧
    p.next msg = some p' ∧ phaseAfter msg.uid (is ++ [msg]) = some p' := hses.exists_step
  obtain ⟨gl', started'⟩ := t'
  obtain ⟨hgl, rfl⟩ : disposeQueueEvent t.gl msg = .ok (gl', out) ∧ started' = t.record msg :=
    sessionMachine_step_eq_ok.mp hstep
  have hgl := disposeQueueEvent_step hgl
  by_cases hreg : t.gl.Registered msg.uid
  · cases hgl with
    | success uid =>
      obtain ⟨rfl, -⟩ := Phase.next_success hnext
      exact absurd hp (h.phase.present uid hreg)
    | ignored hig =>
      cases msg with
      | success uid => exact hig.elim
      | close uid => exact absurd hreg hig
      | data uid req =>
        rcases hig hreg with rfl | ⟨d, rfl⟩ | ⟨b, rfl⟩
        · obtain rfl : p = .loggedIn := by cases p <;> simp_all [Phase.next]
          exact .waits hp
        · cases p <;> cases hnext
        · cases p <;> cases hnext
    | login uid req =>
      obtain rfl : p = .connected := by cases p <;> simp_all [Phase.next]
      exact .login hreg hp
    | start uid hreg' =>
      obtain ⟨rfl, -⟩ := Phase.next_start hnext
      have hrecord : t.record (.data uid (.gameStartReq (some ⟨true⟩))) = insert uid t.started := by
        simp only [Tracked.record, GameMsg.startUid, if_pos hreg']
      rw [hrecord]
      exact .start hreg hp
    | move uid req =>
      obtain rfl : p = .started := by cases p <;> simp_all [Phase.next]
      exact .move hreg hp
    | leave uid data => cases p <;> cases hnext
    | close uid l hreg' =>
      obtain ⟨rfl, -⟩ := Phase.next_close hnext
      have hlist := sameTables_setList t.gl (t.gl.mapOf uid) l
      have hdel : (gameRouteDel (t.gl.setList (t.gl.mapOf uid) l) uid).2 =
          (t.afterClose uid l).gl := by
        rw [(hlist.tableInv h.session.tables).del_eq ((hlist.registered_iff uid).mpr hreg)]
        rfl
      rw [hdel]
      exact .close hreg hp
  · cases hgl with
    | success uid =>
      obtain ⟨rfl, -⟩ := Phase.next_success hnext
      rcases h.session.tables.append_cases uid with he | ⟨m, i, -, -, -, -, he⟩
      · refine .unserved hreg ?_
        rw [he]
        exact hreg
      · refine .registers hreg ?_ hp
        rw [he]
        simp only [GameLogic.Registered, GameLogic.register, Function.update_self]
    | ignored hig => exact .unserved hreg hreg
    | login _ _ hreg' => exact absurd hreg' hreg
    | start _ hreg' => exact absurd hreg' hreg
    | move _ _ hreg' => exact absurd hreg' hreg
    | leave _ _ hreg' => exact absurd hreg' hreg
    | close _ _ hreg' => exact absurd hreg' hreg

/-- Where the session of the client of a message is after it. -/
theorem phaseAfter_concat (msg : GameMsg) {p p' : Phase} (hp : phaseAfter msg.uid is = some p)
    (hnext : p.next msg = some p') : phaseAfter msg.uid (is ++ [msg]) = some p' :=
  sessionAfter_append_eq_some hp hnext

/-- The slot of a client that has logged in names it. -/
theorem IntendedInv.named_step (h : IntendedInv t is) (hses : IntendedSession (is ++ [msg]))
    (hstep : sessionMachine.step t msg = .ok (t', out)) (hu : LoggedIn t' (is ++ [msg]) u) :
    (t'.gl.playerOf u).uid = u.toInt := by
  by_cases hne : u = msg.uid
  · subst hne
    cases h.cases_step hses hstep with
    | unserved _ hreg' => exact absurd hu.1 hreg'
    | @waits uid hphase => exact h.named uid ⟨hu.1, .inl hphase⟩
    | @registers uid _ hreg hreg' hphase =>
      have hafter := phaseAfter_concat (.success uid) hphase rfl
      rcases hu.2 with hp | hp <;> cases hafter.symm.trans hp
    | @login uid req hreg => exact congrArg Player.uid (AvatarInv.playerOf_setPlayer ..)
    | @start uid hreg hphase => exact h.named uid ⟨hreg, .inl hphase⟩
    | @move uid req hreg hphase =>
      have hplayer : (t.gl.move uid req).playerOf uid = movePlayer (t.gl.playerOf uid) req.move :=
        AvatarInv.playerOf_setPlayer ..
      simp only [GameMsg.uid_data, hplayer, movePlayer_uid]
      exact h.named uid ⟨hreg, .inr hphase⟩
    | @close uid l =>
      have hgl := disposeQueueEvent_step (sessionMachine_step_eq_ok.mp hstep).1
      exact absurd hu.1 hgl.not_registered_of_close
  · have hgl := disposeQueueEvent_step (sessionMachine_step_eq_ok.mp hstep).1
    have hold := (Tracked.presence_sameAt is h.session hstep hne).seen.mp hu
    have hcontents := h.session.tables.playerOf_contents_of_ne hgl hold.1 hne
    rw [(Player.contents_eq_iff.mp hcontents).1]
    exact h.named u hold

/-- **Step lemma.** -/
theorem IntendedInv.step (h : IntendedInv t is) (hses : IntendedSession (is ++ [msg]))
    (hclose : ClosesInOrder t msg) (hstep : sessionMachine.step t msg = .ok (t', out)) :
    IntendedInv t' (is ++ [msg]) where
  session := h.session.step hstep
  counter := (counterExact_step_iff h.session h.counter hstep).mpr (h.phase.orderly hses)
  exact := (recipientsExact_step_iff h.session h.counter h.exact (h.phase.orderly hses) hstep).mpr
    hclose
  phase := h.phase.step h.session hses hstep
  named _ hu := h.named_step hses hstep hu

end Step

/-! ### Every message is a deed -/

/-- Who has missed whom after a message. -/
def recordMissed (t : Tracked) (missed : Uid → Uid → Bool) : GameMsg → Uid → Uid → Bool
  | .data u (.logReq (some _)) =>
    if t.gl.Registered u then fun w v => w ≠ u && missed w v else missed
  | .data u (.gameStartReq (some ⟨true⟩)) | .data u (.moveReq (some _)) | .close u =>
    if t.gl.Registered u then
      fun w v =>
        if v = u ∧ t.gl.Registered w ∧ t.gl.mapOf w = t.gl.mapOf u then decide (w ∉ t.started)
        else missed w v
    else missed
  | _ => missed

/-- A message is a deed of the members: it leads from rooms to rooms, tells the clients what the
members are told, and makes them miss what the members miss. -/
def IsDeed (t : Tracked) (is : List GameMsg) (msg : GameMsg) (t' : Tracked)
    (out : List Broadcast) : Prop :=
  ∃ d n, Presence.Step (t.presence is) d (t'.presence (is ++ [msg])) n ∧
    (∀ u, noticesTo u out = (n u).map (Notice.map Uid.toInt)) ∧
    ∀ missed w v, recordMissed t missed msg w v = true ↔
      d.missed (t.presence is) (fun w v => missed w v = true) w v

section Deeds

variable {t t' : Tracked} {is : List GameMsg} {msg : GameMsg} {out : List Broadcast} {uid : Uid}

/-- The recipients of a map are those that take part there. -/
theorem IntendedInv.mem_recipients_iff (h : IntendedInv t is) {m : MapId} {w : Uid} :
    (t.presence is).In m w ↔ w ∈ t.gl.recipients m := by
  rw [Tracked.presence_in_iff h.session, ← (h.exact m).2, List.mem_toFinset]

theorem Tracked.presence_room (t : Tracked) (is : List GameMsg) (hreg : t.gl.Registered uid) :
    (t.presence is).room uid = some (t.gl.mapOf uid) :=
  if_pos hreg

theorem Tracked.presence_place (t : Tracked) (is : List GameMsg) (hreg : t.gl.Registered uid) :
    (t.presence is).place uid = ((t.gl.playerOf uid).pointX, (t.gl.playerOf uid).pointY) :=
  if_pos hreg

/-- What a client does in its room is missed by those in its map that take no part. -/
theorem missed_acts_iff (hreg : t.gl.Registered uid) (missed : Uid → Uid → Bool) (w v : Uid) :
    (if v = uid ∧ t.gl.Registered w ∧ t.gl.mapOf w = t.gl.mapOf uid then decide (w ∉ t.started)
      else missed w v) = true ↔
    (Deed.acts uid).missed (t.presence is) (fun w v => missed w v = true) w v := by
  have hroom : (t.presence is).room w = (t.presence is).room uid ↔
      t.gl.Registered w ∧ t.gl.mapOf w = t.gl.mapOf uid := by
    rw [Tracked.presence_room t is hreg]
    simp only [Tracked.presence]
    split_ifs with hw
    · simp only [Option.some.injEq, hw, true_and]
    · simp only [hw, false_and]
  simp only [Deed.missed, hroom]
  split_ifs with hin
  · simp only [hin, decide_eq_true_eq, true_and, not_true_eq_false, false_and, or_false]
    rfl
  · simp only [hin, not_false_iff, true_and]
    constructor
    · exact Or.inr
    · rintro (⟨rfl, hr, -⟩ | hm)
      · exact absurd ⟨rfl, hr⟩ hin
      · exact hm

/-- A message of a client without a slot, before and after it. -/
theorem IntendedInv.deed_unserved (h : IntendedInv t is) (h' : IntendedInv t' (is ++ [msg]))
    (hstep : sessionMachine.step t msg = .ok (t', [])) (hreg : ¬t.gl.Registered msg.uid)
    (hreg' : ¬t'.gl.Registered msg.uid) : IsDeed t is msg t' [] := by
  have hsame : t'.presence (is ++ [msg]) = t.presence is := by
    refine Tracked.presence_eq h.session hstep ⟨?_, ?_, ?_, ?_⟩ fun w _ =>
      ⟨rfl, rfl, Iff.rfl, Iff.rfl⟩
    · simp only [Tracked.presence, hreg, hreg', if_false]
    · simp only [Tracked.presence, hreg, hreg', if_false]
    · exact iff_of_false (fun hu => hreg' hu.1) (fun hu => hreg hu.1)
    · exact iff_of_false (fun hu => hreg' (h'.session.registered _ hu))
        (fun hu => hreg (h.session.registered _ hu))
  refine ⟨.quiet, fun _ => [], hsame ▸ .quiet fun _ => rfl, fun _ => rfl, fun missed w v => ?_⟩
  have hmissed : recordMissed t missed msg = missed := by
    unfold recordMissed
    split
    all_goals first | rfl | exact if_neg hreg
  rw [hmissed]
  exact Iff.rfl

/-- A start request that does not ask to start. -/
theorem IntendedInv.deed_waits (h : IntendedInv t is)
    (hstep : sessionMachine.step t (.data uid (.gameStartReq (some ⟨false⟩))) = .ok (t, []))
    (hphase : phaseAfter uid is = some .loggedIn) :
    IsDeed t is (.data uid (.gameStartReq (some ⟨false⟩))) t [] := by
  have hafter := phaseAfter_concat (.data uid (.gameStartReq (some ⟨false⟩))) hphase rfl
  have hsame : t.presence (is ++ [.data uid (.gameStartReq (some ⟨false⟩))]) = t.presence is := by
    refine Tracked.presence_eq h.session hstep ⟨rfl, rfl, ?_, Iff.rfl⟩ fun w _ =>
      ⟨rfl, rfl, Iff.rfl, Iff.rfl⟩
    exact and_congr_right fun _ => iff_of_true (.inl hafter) (.inl hphase)
  exact ⟨.quiet, fun _ => [], hsame ▸ .quiet fun _ => rfl, fun _ => rfl, fun _ _ _ => Iff.rfl⟩

/-- A registration enters a room. -/
theorem IntendedInv.deed_registers (h : IntendedInv t is)
    (h' : IntendedInv t' (is ++ [.success uid]))
    (hstep : sessionMachine.step t (.success uid) = .ok (t', []))
    (hreg : ¬t.gl.Registered uid) (hreg' : t'.gl.Registered uid)
    (hphase : phaseAfter uid is = some .away) : IsDeed t is (.success uid) t' [] := by
  have hafter := phaseAfter_concat (.success uid) hphase rfl
  have hroom : (t.presence is).room uid = none := if_neg hreg
  have hsame : t'.presence (is ++ [.success uid]) = { t.presence is with
      room := Function.update (t.presence is).room uid (some (t'.gl.mapOf uid))
      place := Function.update (t.presence is).place uid
        ((t'.gl.playerOf uid).pointX, (t'.gl.playerOf uid).pointY) } := by
    refine Tracked.presence_eq h.session hstep ⟨?_, ?_, ?_, ?_⟩ fun w hw =>
      ⟨?_, ?_, Iff.rfl, Iff.rfl⟩
    · simp only [GameMsg.uid_success, Function.update_self, Tracked.presence_room t' _ hreg']
    · simp only [GameMsg.uid_success, Function.update_self, Tracked.presence_place t' _ hreg']
    · refine iff_of_false (fun hu => ?_) fun hu => hreg hu.1
      rcases hu.2 with hp | hp <;> cases hafter.symm.trans hp
    · refine iff_of_false (fun hu => ?_) fun hu => hreg (h.session.registered uid hu)
      cases hafter.symm.trans ((h'.phase.started_iff uid hreg').mp hu)
    · exact (Function.update_of_ne hw ..).symm
    · exact (Function.update_of_ne hw ..).symm
  exact ⟨.enters uid, fun _ => [], hsame ▸ .enters _ _ hroom fun _ => rfl, fun _ => rfl,
    fun _ _ _ => Iff.rfl⟩

/-- A login looks around. -/
theorem IntendedInv.deed_login (h : IntendedInv t is) {req : LoginReq}
    (hstep : sessionMachine.step t (.data uid (.logReq (some req))) = .ok (t', out))
    (hgl : t'.gl = t.gl.login uid req) (hstarted : t'.started = t.started)
    (hout : out = loginReplies t'.gl uid) (hreg : t.gl.Registered uid)
    (hphase : phaseAfter uid is = some .connected) :
    IsDeed t is (.data uid (.logReq (some req))) t' out := by
  have hafter := phaseAfter_concat (.data uid (.logReq (some req))) hphase rfl
  have hsame : SameTables t.gl t'.gl := hgl ▸ sameTables_login t.gl uid req
  have hnot : uid ∉ t.started := fun hu => by
    cases hphase.symm.trans ((h.phase.started_iff uid hreg).mp hu)
  have hreg' : t'.gl.Registered uid := (hsame.registered_iff uid).mpr hreg
  have hplayer : t'.gl.playerOf uid = userMsgLoad (t.gl.playerOf uid) req uid := by
    rw [hgl]
    exact AvatarInv.playerOf_setPlayer ..
  have hstate : t'.presence (is ++ [.data uid (.logReq (some req))]) = { t.presence is with
      place := Function.update (t.presence is).place uid (startPositionX, startPositionY)
      seen := fun w => w = uid ∨ (t.presence is).seen w } := by
    refine Tracked.presence_eq h.session hstep ⟨?_, ?_, ?_, ?_⟩ fun w hw =>
      ⟨rfl, ?_, ?_, Iff.rfl⟩
    · simp only [GameMsg.uid_data, Tracked.presence_room t' _ hreg', hsame.mapOf_eq,
        Tracked.presence_room t is hreg]
    · simp only [GameMsg.uid_data, Tracked.presence_place t' _ hreg', Function.update_self, hplayer,
        userMsgLoad]
    · exact iff_of_true ⟨hreg', .inl hafter⟩ (.inl rfl)
    · simp only [Tracked.presence, hstarted]
    · exact (Function.update_of_ne hw ..).symm
    · exact ⟨.inr, fun hu => hu.resolve_left hw⟩
  have hlist : t'.gl.recipients (t'.gl.mapOf uid) = t.gl.recipients (t.gl.mapOf uid) := by
    rw [hsame.mapOf_eq, hgl]
    rfl
  refine ⟨.looks uid, fun w => if w = uid then .fresh :: (t.gl.recipients (t.gl.mapOf uid)).map
      fun e => .present e ((t.presence is).place e) else [], ?_, fun w => ?_, fun missed w v => ?_⟩
  · rw [hstate]
    exact .looks _ _ (Tracked.presence_room t is hreg) hnot (fun v => h.mem_recipients_iff.symm)
      (.ite fun w => Iff.rfl)
  · beta_reduce
    rw [hout, noticesTo_loginReplies, hlist]
    split_ifs
    · rw [List.map_cons, List.map_map]
      refine congrArg (List.cons _) (List.map_congr_left fun e he => ?_)
      -- Whoever is listed has started, and is not moved by the login.
      obtain ⟨hestarted, hereg, -⟩ := Tracked.mem_startedIn.mp
        ((Tracked.presence_in_iff h.session).mp (h.mem_recipients_iff.mpr he))
      have hne : e ≠ uid := fun he => hnot (he ▸ hestarted)
      have hereg' : t'.gl.Registered e := (hsame.registered_iff e).mpr hereg
      have hplace := (Tracked.presence_sameAt is h.session hstep hne).place
      rw [Tracked.presence_place t' _ hereg'] at hplace
      rw [hplace]
      rfl
    · rfl
  · simp only [recordMissed, if_pos hreg, Deed.missed, Bool.and_eq_true, decide_eq_true_eq]

/-- A start joins in. -/
theorem IntendedInv.deed_start (h : IntendedInv t is)
    (hstep : sessionMachine.step t (.data uid (.gameStartReq (some ⟨true⟩))) = .ok (t', out))
    (ht : t' = t.afterStart uid)
    (hout : out = [toMap t.gl (t.gl.mapOf uid) .newEnemy (.newEnemy (t.gl.playerOf uid).uid
        (t.gl.playerOf uid).pointX (t.gl.playerOf uid).pointY),
      ⟨1, [uid.toInt], .gameStartRsp, .startRsp true⟩])
    (hreg : t.gl.Registered uid) (hphase : phaseAfter uid is = some .loggedIn) :
    IsDeed t is (.data uid (.gameStartReq (some ⟨true⟩))) t' out := by
  have hafter := phaseAfter_concat (.data uid (.gameStartReq (some ⟨true⟩))) hphase rfl
  have hsame : SameTables t.gl t'.gl := ht ▸ sameTables_start t.gl uid
  have hseen : LoggedIn t is uid := ⟨hreg, .inl hphase⟩
  have hnot : uid ∉ t.started := fun hu => by
    cases hphase.symm.trans ((h.phase.started_iff uid hreg).mp hu)
  have hreg' : t'.gl.Registered uid := (hsame.registered_iff uid).mpr hreg
  have hplayer : t'.gl.playerOf uid = t.gl.playerOf uid := by
    rw [ht]
    rfl
  have hstate : t'.presence (is ++ [.data uid (.gameStartReq (some ⟨true⟩))]) =
      { t.presence is with playing := fun w => w = uid ∨ (t.presence is).playing w } := by
    refine Tracked.presence_eq h.session hstep ⟨?_, ?_, ?_, ?_⟩ fun w hw =>
      ⟨rfl, rfl, Iff.rfl, ?_⟩
    · simp only [GameMsg.uid_data, Tracked.presence_room t' _ hreg', hsame.mapOf_eq,
        Tracked.presence_room t is hreg]
    · simp only [GameMsg.uid_data, Tracked.presence_place t' _ hreg', hplayer,
        Tracked.presence_place t is hreg]
    · exact iff_of_true ⟨hreg', .inr hafter⟩ hseen
    · refine iff_of_true ?_ (.inl rfl)
      rw [ht]
      exact Finset.mem_insert_self ..
    · exact ⟨.inr, fun hu => hu.resolve_left hw⟩
  refine ⟨.acts uid, fun w => if w ∈ t.gl.recipients (t.gl.mapOf uid) then
      [.present uid ((t.presence is).place uid)] else [], ?_, fun w => ?_, fun missed w v => ?_⟩
  · rw [hstate]
    exact .joins (Tracked.presence_room t is hreg) hseen hnot (.ite fun w => h.mem_recipients_iff)
  · beta_reduce
    rw [hout, ← List.singleton_append, noticesTo_append, noticesTo_toMap, noticesTo_single,
      h.named uid hseen, Tracked.presence_place t is hreg]
    simp only [Rsp.notice?, Option.toList_none, ite_self, List.append_nil]
    split_ifs <;> rfl
  · simp only [recordMissed, if_pos hreg]
    exact missed_acts_iff hreg missed w v

/-- A move is one. -/
theorem IntendedInv.deed_move (h : IntendedInv t is) {req : MoveReq}
    (hstep : sessionMachine.step t (.data uid (.moveReq (some req))) = .ok (t', out))
    (hgl : t'.gl = t.gl.move uid req) (hstarted : t'.started = t.started)
    (hout : out = [toMap t.gl (t.gl.mapOf uid) .enemyMsg
      (.enemyMsg (movePlayer (t.gl.playerOf uid) req.move).uid
        (movePlayer (t.gl.playerOf uid) req.move).pointX
        (movePlayer (t.gl.playerOf uid) req.move).pointY)])
    (hreg : t.gl.Registered uid) (hphase : phaseAfter uid is = some .started) :
    IsDeed t is (.data uid (.moveReq (some req))) t' out := by
  have hafter := phaseAfter_concat (.data uid (.moveReq (some req))) hphase rfl
  have hsame : SameTables t.gl t'.gl := hgl ▸ sameTables_move t.gl uid req
  have hin : (t.presence is).In (t.gl.mapOf uid) uid :=
    ⟨(h.phase.started_iff uid hreg).mpr hphase, Tracked.presence_room t is hreg⟩
  have hreg' : t'.gl.Registered uid := (hsame.registered_iff uid).mpr hreg
  have hplayer : t'.gl.playerOf uid = movePlayer (t.gl.playerOf uid) req.move := by
    rw [hgl]
    exact AvatarInv.playerOf_setPlayer ..
  have hstate : t'.presence (is ++ [.data uid (.moveReq (some req))]) = { t.presence is with
      place := Function.update (t.presence is).place uid
        ((t'.gl.playerOf uid).pointX, (t'.gl.playerOf uid).pointY) } := by
    refine Tracked.presence_eq h.session hstep ⟨?_, ?_, ?_, ?_⟩ fun w hw =>
      ⟨rfl, ?_, Iff.rfl, Iff.rfl⟩
    · simp only [GameMsg.uid_data, Tracked.presence_room t' _ hreg', hsame.mapOf_eq,
        Tracked.presence_room t is hreg]
    · simp only [GameMsg.uid_data, Tracked.presence_place t' _ hreg', Function.update_self]
    · exact iff_of_true ⟨hreg', .inr hafter⟩ ⟨hreg, .inr hphase⟩
    · simp only [Tracked.presence, hstarted]
    · exact (Function.update_of_ne hw ..).symm
  refine ⟨.acts uid, fun w => if w ∈ t.gl.recipients (t.gl.mapOf uid) then
      [.present uid ((t'.gl.playerOf uid).pointX, (t'.gl.playerOf uid).pointY)] else [], ?_,
    fun w => ?_, fun missed w v => ?_⟩
  · rw [hstate]
    exact .moves _ hin (.ite fun w => h.mem_recipients_iff)
  · beta_reduce
    rw [hout, noticesTo_toMap, movePlayer_uid, h.named uid ⟨hreg, .inr hphase⟩, hplayer]
    simp only [Rsp.notice?, Option.toList_some]
    split_ifs <;> rfl
  · simp only [recordMissed, if_pos hreg]
    exact missed_acts_iff hreg missed w v

/-- A close leaves. -/
theorem IntendedInv.deed_close (h : IntendedInv t is) (h' : IntendedInv t' (is ++ [.close uid]))
    {l : Vector Uid maxPlayerEachMap}
    (hstep : sessionMachine.step t (.close uid) = .ok (t', out)) (ht : t' = t.afterClose uid l)
    (hout : out = [toMap t'.gl (t.gl.mapOf uid) .enemyLeave
      (.enemyLeave (t.gl.playerOf uid).uid)])
    (hreg : t.gl.Registered uid) (hphase : phaseAfter uid is = some .started) :
    IsDeed t is (.close uid) t' out := by
  have hin : (t.presence is).In (t.gl.mapOf uid) uid :=
    ⟨(h.phase.started_iff uid hreg).mpr hphase, Tracked.presence_room t is hreg⟩
  have hreg' : ¬t'.gl.Registered uid :=
    (disposeQueueEvent_step (sessionMachine_step_eq_ok.mp hstep).1).not_registered_of_close
  have hstate : t'.presence (is ++ [.close uid]) = { t.presence is with
      room := Function.update (t.presence is).room uid none
      place := Function.update (t.presence is).place uid (0, 0)
      seen := fun w => w ≠ uid ∧ (t.presence is).seen w
      playing := fun w => w ≠ uid ∧ (t.presence is).playing w } := by
    refine Tracked.presence_eq h.session hstep ⟨?_, ?_, ?_, ?_⟩ fun w hw => ⟨?_, ?_, ?_, ?_⟩
    · simp only [GameMsg.uid_close, Function.update_self]
      exact if_neg hreg'
    · simp only [GameMsg.uid_close, Function.update_self]
      exact if_neg hreg'
    · exact iff_of_false (fun hu => hreg' hu.1) fun hu => hu.1 rfl
    · exact iff_of_false (fun hu => hreg' (h'.session.registered uid hu)) fun hu => hu.1 rfl
    · exact (Function.update_of_ne hw ..).symm
    · exact (Function.update_of_ne hw ..).symm
    · exact (and_iff_right hw).symm
    · exact (and_iff_right hw).symm
  -- The recipients are those that are left.
  have hmem : ∀ w, (w ≠ uid ∧ (t.presence is).In (t.gl.mapOf uid) w) ↔
      w ∈ t'.gl.recipients (t.gl.mapOf uid) := by
    intro w
    rw [← h'.mem_recipients_iff, Tracked.presence_in_iff h'.session,
      Tracked.presence_in_iff h.session, ht, Tracked.startedIn_afterClose, Finset.mem_erase]
  refine ⟨.acts uid, fun w => if w ∈ t'.gl.recipients (t.gl.mapOf uid) then [.gone uid] else [], ?_,
    fun w => ?_, fun missed w v => ?_⟩
  · rw [hstate]
    exact .leaves _ hin (.ite hmem)
  · beta_reduce
    rw [hout, noticesTo_toMap, h.named uid ⟨hreg, .inr hphase⟩]
    simp only [Rsp.notice?, Option.toList_some]
    split_ifs <;> rfl
  · simp only [recordMissed, if_pos hreg]
    exact missed_acts_iff hreg missed w v

/-- **Step lemma.** Every message of an intended session is a deed of the members. -/
theorem IntendedInv.isDeed (h : IntendedInv t is) (hses : IntendedSession (is ++ [msg]))
    (hclose : ClosesInOrder t msg) (hstep : sessionMachine.step t msg = .ok (t', out)) :
    IsDeed t is msg t' out := by
  have h' := h.step hses hclose hstep
  cases h.cases_step hses hstep with
  | unserved hreg hreg' => exact h.deed_unserved h' hstep hreg hreg'
  | waits hphase => exact h.deed_waits hstep hphase
  | registers hreg hreg' hphase => exact h.deed_registers h' hstep hreg hreg' hphase
  | login hreg hphase => exact h.deed_login hstep rfl rfl rfl hreg hphase
  | start hreg hphase => exact h.deed_start hstep rfl rfl hreg hphase
  | move hreg hphase => exact h.deed_move hstep rfl rfl rfl hreg hphase
  | close hreg hphase => exact h.deed_close h' hstep rfl rfl hreg hphase

end Deeds

/-! ### Intended runs -/

/-- The game service, with who has missed whom recorded. -/
def viewMachine : Machine (Tracked × (Uid → Uid → Bool)) GameMsg Broadcast Fault :=
  sessionMachine.withGhost fun t msg missed => recordMissed t missed msg

/-- Before the first message nobody has missed anybody. -/
def viewStart (heap : MapId → SlotId → Player) : Tracked × (Uid → Uid → Bool) :=
  (Tracked.init heap, fun _ _ => false)

section Runs

variable {heap : MapId → SlotId → Player} {is : List GameMsg} {os : List Broadcast}
  {s : Tracked × (Uid → Uid → Bool)}

/-- **Run lemma.** -/
theorem presence_of_run (hses : IntendedSession is)
    (hrun : viewMachine.Exec (fun s => ClosesInOrder s.1) (viewStart heap) is os s) :
    IntendedInv s.1 is ∧ ∃ notes, Presence.Run (State.empty fun _ => (0, 0)) (s.1.presence is) notes
        (fun w v => s.2 w v = true) ∧
      ∀ u, noticesTo u os = (notes u).map (Notice.map Uid.toInt) := by
  induction hrun with
  | init =>
    have hstart : (Tracked.init heap).presence [] = State.empty fun _ => (0, 0) := by
      refine State.eq_of_sameAt fun w => ⟨?_, ?_, ?_, ?_⟩
      · simp [Tracked.presence, Tracked.init, GameLogic.Registered, gameLogicCreat, State.empty]
      · simp [Tracked.presence, Tracked.init, GameLogic.Registered, gameLogicCreat, State.empty]
      · refine iff_of_false (fun hw => ?_) id
        simp [Tracked.init, GameLogic.Registered, gameLogicCreat, LoggedIn, Tracked.presence] at hw
      · exact iff_of_false (Finset.notMem_empty w) id
    have hmissed : (fun w v => (viewStart heap).2 w v = true) = fun _ _ => False := by
      funext w v
      exact eq_false Bool.false_ne_true
    refine ⟨IntendedInv.init heap, fun _ => [], ?_, fun _ => rfl⟩
    rw [show (viewStart heap).1.presence [] = _ from hstart, hmissed]
    exact .init
  | @next is os s msg s' out hexec hclose hstep ih =>
    obtain ⟨hinv, notes, hrun, hnotes⟩ := ih hses.of_append
    obtain ⟨hs, hghost⟩ := Machine.withGhost_step_eq_ok.mp hstep
    obtain ⟨d, n, hd, hn, hmissed⟩ := hinv.isDeed hses hclose hs
    have hnext : (fun w v => s'.2 w v = true) =
        d.missed (s.1.presence is) fun w v => s.2 w v = true := by
      funext w v
      rw [hghost]
      exact propext (hmissed s.2 w v)
    refine ⟨hinv.step hses hclose hs, fun w => notes w ++ n w, hnext ▸ hrun.next hd, fun u => ?_⟩
    rw [noticesTo_append, hnotes, hn, List.map_append]

/-- **A game service is presence in rooms.** While the clients keep to the intended session and
closes are in order, its state is that of members who entered their maps, looked around, joined in,
moved and left; its messages tell every client what those members are told; and whom they have
missed is whom the clients have missed. -/
theorem game_service_is_presence (hses : IntendedSession is)
    (hrun : viewMachine.Exec (fun s => ClosesInOrder s.1) (viewStart heap) is os s) :
    ∃ notes, Presence.Run (State.empty fun _ => (0, 0)) (s.1.presence is) notes
        (fun w v => s.2 w v = true) ∧
      ∀ u, noticesTo u os = (notes u).map (Notice.map Uid.toInt) :=
  (presence_of_run hses hrun).2

/-- Client 3 starts, client 4 logs in, and client 3 leaves. -/
theorem game_service_is_presence_run : ∃ s os notes,
    viewMachine.Exec (fun s => ClosesInOrder s.1) (viewStart zeroHeap)
      [.success 3, .success 4, .data 3 (.logReq (some ⟨[]⟩)), .data 3 (.gameStartReq (some ⟨true⟩)),
        .data 4 (.logReq (some ⟨[]⟩)), .close 3] os s ∧
    Presence.Run (State.empty fun _ => (0, 0)) (s.1.presence [.success 3, .success 4,
        .data 3 (.logReq (some ⟨[]⟩)), .data 3 (.gameStartReq (some ⟨true⟩)),
        .data 4 (.logReq (some ⟨[]⟩)), .close 3]) notes (fun w v => s.2 w v = true) ∧
    s.2 4 3 = true ∧ noticesTo 4 os = (notes 4).map (Notice.map Uid.toInt) ∧
    noticesTo 4 os = [.fresh, .present (Uid.toInt 3) (0, 0)] := by
  have hses : IntendedSession [.success 3, .success 4, .data 3 (.logReq (some ⟨[]⟩)),
      .data 3 (.gameStartReq (some ⟨true⟩)), .data 4 (.logReq (some ⟨[]⟩)), .close 3] := by
    decide
  have hrun : (viewMachine.run (fun s => ClosesInOrder s.1) (viewStart zeroHeap)
      [.success 3, .success 4, .data 3 (.logReq (some ⟨[]⟩)), .data 3 (.gameStartReq (some ⟨true⟩)),
        .data 4 (.logReq (some ⟨[]⟩)), .close 3]).map
      (fun p => (p.1.2 4 3, noticesTo 4 p.2)) =
        some (true, [.fresh, .present (Uid.toInt 3) (0, 0)]) := by
    decide +kernel
  obtain ⟨s, os, hrun, hobs⟩ := viewMachine.exec_of_run_map hrun
  obtain ⟨hmissed, htold⟩ := Prod.mk.inj hobs
  obtain ⟨notes, hpresence, hnotes⟩ := game_service_is_presence hses hrun
  exact ⟨s, os, notes, hrun, hpresence, hmissed, hnotes 4, htold⟩

/-- **What the clients know.** While the clients keep to the intended session and closes are in
order, a client that has logged in knows, from the messages addressed to it, of every other client
that it has not missed, whether that one has started in its map, and where it is; and it knows of
nobody who is no client. It misses whom starts, moves or closes in its map between its login and
its start, until that one moves or closes again. -/
theorem pictures_exact (hses : IntendedSession is)
    (hrun : viewMachine.Exec (fun s => ClosesInOrder s.1) (viewStart heap) is os s)
    {u : Uid} (hu : LoggedIn s.1 is u) :
    (∀ v, v ≠ u → s.2 u v = false → ∀ p, clientPicture u os v.toInt = some p ↔
      v ∈ s.1.startedIn (s.1.gl.mapOf u) ∧
        p = ((s.1.gl.playerOf v).pointX, (s.1.gl.playerOf v).pointY)) ∧
    ∀ k p, clientPicture u os k = some p → ∃ v : Uid, k = v.toInt := by
  obtain ⟨hinv, notes, hpresence, hnotes⟩ := presence_of_run hses hrun
  refine ⟨fun v hne hm p => ?_, fun k p hp => ?_⟩
  · have hmissed : ¬s.2 u v = true := by
      rw [hm]
      exact Bool.false_ne_true
    rw [clientPicture, hnotes, picture_map Uid.toInt_injective,
      hpresence.pictured.2 u v hu hne hmissed p]
    have hin : (s.1.presence is).playing v ∧
        (s.1.presence is).room v = (s.1.presence is).room u ↔
        v ∈ s.1.startedIn (s.1.gl.mapOf u) := by
      rw [Tracked.presence_room s.1 is hu.1]
      exact Tracked.presence_in_iff hinv.session
    rw [← hin, and_assoc]
    refine and_congr_right fun hv => and_congr_right fun _ => ?_
    rw [Tracked.presence_place s.1 is (hinv.session.registered v hv), eq_comm]
  · by_contra hk
    push Not at hk
    rw [clientPicture, hnotes, picture_map_eq_none fun v => (hk v).symm] at hp
    cases hp

/-- Client 3 starts before client 4 logs in, and moves after client 4 has started. -/
theorem pictures_exact_run : ∃ s os,
    viewMachine.Exec (fun s => ClosesInOrder s.1) (viewStart zeroHeap)
      [.success 3, .success 4, .data 3 (.logReq (some ⟨[]⟩)), .data 3 (.gameStartReq (some ⟨true⟩)),
        .data 4 (.logReq (some ⟨[]⟩)), .data 4 (.gameStartReq (some ⟨true⟩)),
        .data 3 (.moveReq (some ⟨2⟩))] os s ∧
    (clientPicture 4 os (Uid.toInt 3) = some (4, 0) ↔ (3 : Uid) ∈ s.1.startedIn (s.1.gl.mapOf 4) ∧
      ((4, 0) : ℤ × ℤ) = ((s.1.gl.playerOf 3).pointX, (s.1.gl.playerOf 3).pointY)) ∧
    clientPicture 4 os (Uid.toInt 3) = some (4, 0) := by
  have hses : IntendedSession [.success 3, .success 4, .data 3 (.logReq (some ⟨[]⟩)),
      .data 3 (.gameStartReq (some ⟨true⟩)), .data 4 (.logReq (some ⟨[]⟩)),
      .data 4 (.gameStartReq (some ⟨true⟩)), .data 3 (.moveReq (some ⟨2⟩))] := by
    decide
  have hrun : (viewMachine.run (fun s => ClosesInOrder s.1) (viewStart zeroHeap)
      [.success 3, .success 4, .data 3 (.logReq (some ⟨[]⟩)), .data 3 (.gameStartReq (some ⟨true⟩)),
        .data 4 (.logReq (some ⟨[]⟩)), .data 4 (.gameStartReq (some ⟨true⟩)),
        .data 3 (.moveReq (some ⟨2⟩))]).map
      (fun p => (decide (p.1.1.gl.Registered 4), p.1.2 4 3,
        clientPicture 4 p.2 (Uid.toInt 3))) = some (true, false, some (4, 0)) := by
    decide +kernel
  obtain ⟨s, os, hrun, hobs⟩ := viewMachine.exec_of_run_map hrun
  obtain ⟨hreg, hobs⟩ := Prod.mk.inj hobs
  obtain ⟨hmissed, hpicture⟩ := Prod.mk.inj hobs
  exact ⟨s, os, hrun, (pictures_exact hses hrun ⟨of_decide_eq_true hreg, by decide⟩).1 3 (by decide)
    hmissed (4, 0), hpicture⟩

/-- Client 3 starts between the login and the start of client 4, which does not know of it. -/
theorem picture_of_missed : ∃ s os,
    viewMachine.Exec (fun s => ClosesInOrder s.1) (viewStart zeroHeap)
      [.success 3, .success 4, .data 3 (.logReq (some ⟨[]⟩)), .data 4 (.logReq (some ⟨[]⟩)),
        .data 3 (.gameStartReq (some ⟨true⟩)), .data 4 (.gameStartReq (some ⟨true⟩))] os s ∧
    s.2 4 3 = true ∧ (3 : Uid) ∈ s.1.startedIn 0 ∧ (4 : Uid) ∈ s.1.startedIn 0 ∧
    clientPicture 4 os (Uid.toInt 3) = none := by
  have hrun : (viewMachine.run (fun s => ClosesInOrder s.1) (viewStart zeroHeap)
      [.success 3, .success 4, .data 3 (.logReq (some ⟨[]⟩)), .data 4 (.logReq (some ⟨[]⟩)),
        .data 3 (.gameStartReq (some ⟨true⟩)), .data 4 (.gameStartReq (some ⟨true⟩))]).map
      (fun p => (p.1.2 4 3, decide ((3 : Uid) ∈ p.1.1.startedIn 0 ∧ (4 : Uid) ∈ p.1.1.startedIn 0),
        clientPicture 4 p.2 (Uid.toInt 3))) = some (true, true, none) := by
    decide +kernel
  obtain ⟨s, os, hrun, hobs⟩ := viewMachine.exec_of_run_map hrun
  obtain ⟨hmissed, hobs⟩ := Prod.mk.inj hobs
  obtain ⟨hstarted, hpicture⟩ := Prod.mk.inj hobs
  exact ⟨s, os, hrun, hmissed, (of_decide_eq_true hstarted).1, (of_decide_eq_true hstarted).2,
    hpicture⟩

end Runs

end GameServer
