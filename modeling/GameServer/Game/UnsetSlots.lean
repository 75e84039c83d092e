import GameServer.Game.Avatars
import GameServer.Library.Lockstep

/-!
# What the service shows of slots that nobody has logged in to

Two runs of a game service on the same messages, whose slots `malloc` left with different
contents. A slot stays as it was until a login signs it; from then on it holds the same in both
runs. `AgreeOn S` relates the states of the two runs when the slots of `S`, those that are signed,
hold the same. The tables never depend on the contents of the slots, so the runs go in lockstep,
and they send the same as long as no message has the service show a slot that is not signed.

A message that does have it show one can be told from the broadcasts: for some other contents of
that slot the service sends something else.

## Main definitions

* `Player.shown`, `Shows` : what the service reads of a slot, and the slots that it reads for a
  message.
* `AgreeOn` : states that agree on a set of slots.
* `ShowsSigned` : the condition that only signed slots are shown.

## Main results

* `AgreeOn.step`, `avatarMachine_lockstep` : the two runs go in lockstep.
* `outputs_same_iff` : whatever the slots held, the service sends the same, exactly if it only
  shows slots that are signed.
-/

namespace GameServer

/-! ### The slots that a message shows -/

/-- What the service reads of a slot: the uid, the position and the step. -/
def Player.shown (p : Player) : ℤ × Avatar := (p.uid, p.avatar)

theorem Player.shown_eq_iff {p p' : Player} :
    p'.shown = p.shown ↔ p'.uid = p.uid ∧ p'.avatar = p.avatar :=
  Prod.mk_inj

/-- The same contents make the same broadcasts. -/
theorem Player.shown_points {p p' : Player} (h : p'.shown = p.shown) :
    p'.uid = p.uid ∧ p'.pointX = p.pointX ∧ p'.pointY = p.pointY := by
  obtain ⟨huid, havatar⟩ := Player.shown_eq_iff.mp h
  obtain ⟨hx, hy, -⟩ := Avatar.mk.inj havatar
  exact ⟨huid, hx, hy⟩

theorem movePlayer_shown {p p' : Player} (h : p'.shown = p.shown) (move : ℤ) :
    (movePlayer p' move).shown = (movePlayer p move).shown := by
  obtain ⟨huid, havatar⟩ := Player.shown_eq_iff.mp h
  exact Player.shown_eq_iff.mpr ⟨by rw [movePlayer_uid, movePlayer_uid, huid],
    by rw [movePlayer_avatar, movePlayer_avatar, havatar]⟩

/-- The broadcasts for the message tell what the slot `i` of map `m` holds: a login tells the
newcomer of the listed players, a start and a move tell the map of the player, and a leave and a
close carry the uid in the slot. -/
def Shows (gl : GameLogic) (m : MapId) (i : SlotId) : GameMsg → Prop
  | .data u (.logReq (some _)) => gl.Registered u ∧
    ∃ e ∈ gl.recipients (gl.mapOf u), e ≠ u ∧ m = gl.mapOf e ∧ i = gl.slotOf e
  | .data u (.gameStartReq (some ⟨true⟩)) => gl.Registered u ∧ m = gl.mapOf u ∧ i = gl.slotOf u
  | .data u (.moveReq (some _)) => gl.Registered u ∧ m = gl.mapOf u ∧ i = gl.slotOf u
  | .data u (.leaveReq _) => gl.Registered u ∧ m = gl.mapOf u ∧ i = gl.slotOf u
  | .close u => gl.Registered u ∧ m = gl.mapOf u ∧ i = gl.slotOf u
  | _ => False

/-! ### States that agree on a set of slots -/

/-- The tables agree, and the slots of `S` hold the same. -/
structure AgreeOn (S : MapId → SlotId → Prop) (gl gl' : GameLogic) : Prop
    extends SameTables gl gl' where
  mapPlayerNum_eq : gl'.mapPlayerNum = gl.mapPlayerNum
  mapUidList_eq : gl'.mapUidList = gl.mapUidList
  shown_eq : ∀ m i, S m i → (gl'.mapPlayer m i).shown = (gl.mapPlayer m i).shown

namespace AgreeOn

variable {S : MapId → SlotId → Prop} {gl gl' : GameLogic}

theorem symm (h : AgreeOn S gl gl') : AgreeOn S gl' gl where
  uid2Playid_eq := h.uid2Playid_eq.symm
  socketUid_eq := h.socketUid_eq.symm
  playerNum_eq := h.playerNum_eq.symm
  state_eq m i := (h.state_eq m i).symm
  mapPlayerNum_eq := h.mapPlayerNum_eq.symm
  mapUidList_eq := h.mapUidList_eq.symm
  shown_eq m i hs := (h.shown_eq m i hs).symm

/-- Two services that start agree on no slot. -/
theorem init (heap heap' : MapId → SlotId → Player) :
    AgreeOn (fun _ _ => False) (gameLogicCreat heap) (gameLogicCreat heap') :=
  ⟨⟨rfl, rfl, rfl, fun _ _ => rfl⟩, rfl, rfl, fun _ _ => False.elim⟩

theorem recipients_eq (h : AgreeOn S gl gl') (m : MapId) : gl'.recipients m = gl.recipients m := by
  simp only [GameLogic.recipients, h.mapUidList_eq, h.mapPlayerNum_eq]

theorem toMap_eq (h : AgreeOn S gl gl') (m : MapId) (ty : RspType) (rsp : Rsp) :
    toMap gl' m ty rsp = toMap gl m ty rsp := by
  simp only [toMap, h.mapPlayerNum_eq, h.recipients_eq]

theorem playerOf_shown (h : AgreeOn S gl gl') {u : Uid} (hs : S (gl.mapOf u) (gl.slotOf u)) :
    (gl'.playerOf u).shown = (gl.playerOf u).shown := by
  rw [GameLogic.playerOf, h.toSameTables.mapOf_eq, h.toSameTables.slotOf_eq]
  exact h.shown_eq _ _ hs

/-- A write to the slot `(m, i)` that leaves the marks equal. -/
theorem setSlot {S' : MapId → SlotId → Prop} (h : AgreeOn S gl gl') {m : MapId} {i : SlotId}
    {p p' : Player} (hstate : p'.state = p.state)
    (hshown : S' m i → p'.shown = p.shown)
    (hS : ∀ m' i', (m', i') ≠ (m, i) → S' m' i' → S m' i') :
    AgreeOn S' (gl.setSlot m i p) (gl'.setSlot m i p') where
  uid2Playid_eq := h.uid2Playid_eq
  socketUid_eq := h.socketUid_eq
  playerNum_eq := h.playerNum_eq
  mapPlayerNum_eq := h.mapPlayerNum_eq
  mapUidList_eq := h.mapUidList_eq
  state_eq m' i' := by
    by_cases hc : (m', i') = (m, i)
    · obtain ⟨rfl, rfl⟩ := Prod.mk.inj hc
      simpa only [GameLogic.setSlot_mapPlayer, setCell_self] using hstate
    · simpa only [GameLogic.setSlot_mapPlayer, setCell_of_ne hc] using h.state_eq m' i'
  shown_eq m' i' hs := by
    by_cases hc : (m', i') = (m, i)
    · obtain ⟨rfl, rfl⟩ := Prod.mk.inj hc
      simpa only [GameLogic.setSlot_mapPlayer, setCell_self] using hshown hs
    · simpa only [GameLogic.setSlot_mapPlayer, setCell_of_ne hc]
        using h.shown_eq m' i' (hS m' i' hc hs)

/-- A mark set on a slot in both states. -/
theorem setState (h : AgreeOn S gl gl') (m : MapId) (i : SlotId) (st : StateType) :
    AgreeOn S (gl.setSlot m i { gl.mapPlayer m i with state := st })
      (gl'.setSlot m i { gl'.mapPlayer m i with state := st }) :=
  h.setSlot rfl (fun hs => h.shown_eq m i hs) fun _ _ _ hs => hs

/-- Registration goes by the marks, the counters and the entries. -/
theorem append (h : AgreeOn S gl gl') (uid : Uid) :
    (gameRouteAppend gl' uid).1 = (gameRouteAppend gl uid).1 ∧
      AgreeOn S (gameRouteAppend gl uid).2 (gameRouteAppend gl' uid).2 := by
  have hmap : gameRouteGetMapid gl' = gameRouteGetMapid gl := by
    simp only [gameRouteGetMapid, h.playerNum_eq, h.mapPlayerNum_eq]
  by_cases hfree : (gl.uid2Playid uid).state = .typeInvalid
  · cases hm : gameRouteGetMapid gl with
    | none => simpa only [gameRouteAppend, h.uid2Playid_eq, hmap, hm, hfree, if_true, true_and]
    | some m =>
      cases hi : (List.finRange maxPlayerEachMap).find? fun i =>
          (gl.mapPlayer m i).state = .typeInvalid with
      | none =>
        simpa only [gameRouteAppend, gameRouteGetPlayeridInMap, h.uid2Playid_eq, hmap, hm, hfree,
          h.state_eq, hi, Option.map_none, if_true, true_and]
      | some i =>
        have hset := h.setState m i .typeUsing
        by_cases hnull : gl.mapPlayerSocketUid m i = none
        · simp only [gameRouteAppend, gameRouteGetPlayeridInMap, h.uid2Playid_eq, hmap, hm, hfree,
            h.state_eq, hi, Option.map_some, GameLogic.setSlot, h.socketUid_eq, hnull, if_true,
            true_and]
          exact ⟨⟨rfl, rfl, congrArg (· + 1) h.playerNum_eq, hset.state_eq⟩, h.mapPlayerNum_eq,
            h.mapUidList_eq, hset.shown_eq⟩
        · simpa only [gameRouteAppend, gameRouteGetPlayeridInMap, h.uid2Playid_eq, hmap, hm, hfree,
            h.state_eq, hi, Option.map_some, GameLogic.setSlot, h.socketUid_eq, if_neg hnull,
            if_true, true_and] using hset
  · simpa only [gameRouteAppend, h.uid2Playid_eq, if_neg hfree, true_and]

/-- Removal clears a mark and leaves the contents of the slots alone. -/
theorem del (h : AgreeOn S gl gl') (uid : Uid) :
    AgreeOn S (gameRouteDel gl uid).2 (gameRouteDel gl' uid).2 := by
  by_cases hreg : gl.Registered uid
  · have hreg' : gl'.Registered uid := (h.toSameTables.registered_iff uid).mpr hreg
    have hdrop : AgreeOn S (gl.dropEntry uid) (gl'.dropEntry uid) :=
      ⟨⟨by simp only [GameLogic.dropEntry, h.uid2Playid_eq], h.socketUid_eq,
        congrArg (· - 1) h.playerNum_eq, h.state_eq⟩,
        by simp only [GameLogic.dropEntry, h.mapPlayerNum_eq, h.toSameTables.mapOf_eq],
        h.mapUidList_eq, h.shown_eq⟩
    by_cases hslot : gl.mapPlayerSocketUid (gl.mapOf uid) (gl.slotOf uid) = some uid
    · have hslot' : gl'.mapPlayerSocketUid (gl'.mapOf uid) (gl'.slotOf uid) = some uid := by
        rw [h.socketUid_eq, h.toSameTables.mapOf_eq, h.toSameTables.slotOf_eq, hslot]
      have hset := h.setState (gl.mapOf uid) (gl.slotOf uid) .typeInvalid
      rw [gameRouteDel_of_slot hreg hslot, gameRouteDel_of_slot hreg' hslot']
      simp only [GameLogic.unregister, GameLogic.playerOf, h.toSameTables.mapOf_eq,
        h.toSameTables.slotOf_eq, h.socketUid_eq]
      exact ⟨⟨hdrop.uid2Playid_eq, rfl, hdrop.playerNum_eq, hset.state_eq⟩, hdrop.mapPlayerNum_eq,
        h.mapUidList_eq, hset.shown_eq⟩
    · have hslot' : gl'.mapPlayerSocketUid (gl'.mapOf uid) (gl'.slotOf uid) ≠ some uid := by
        rwa [h.socketUid_eq, h.toSameTables.mapOf_eq, h.toSameTables.slotOf_eq]
      rwa [gameRouteDel_of_mismatch hreg hslot, gameRouteDel_of_mismatch hreg' hslot']
  · have hreg' : ¬gl'.Registered uid := fun hr =>
      hreg ((h.toSameTables.registered_iff uid).mp hr)
    rwa [gameRouteDel_of_not_registered hreg, gameRouteDel_of_not_registered hreg']

end AgreeOn

/-! ### Two runs in lockstep -/

/-- The slot has been logged in to. -/
def Record.Signed (r : Record) (m : MapId) (i : SlotId) : Prop := r.signer m i ≠ none

/-- A message of which the service shows signed slots only. -/
def ShowsSigned (s : GameLogic × Record) (msg : GameMsg) : Prop :=
  ∀ m i, Shows s.1 m i msg → s.2.Signed m i

/-- The record goes by the tables. -/
theorem AgreeOn.after_eq {S : MapId → SlotId → Prop} {gl gl' : GameLogic} (h : AgreeOn S gl gl')
    (msg : GameMsg) (r : Record) : Record.after gl' msg r = Record.after gl msg r := by
  cases msg with
  | success uid => simp only [Record.after, (h.append uid).1]
  | close uid => rfl
  | data uid req =>
    simp only [Record.after, h.toSameTables.registered_iff]
    split_ifs
    · unfold Record.act
      simp only [h.toSameTables.mapOf_eq, h.toSameTables.slotOf_eq]
    · rfl

/-- A message other than a login of a registered uid signs no slot. -/
theorem Record.after_signed {gl : GameLogic} {r : Record} {msg : GameMsg}
    (h : ∀ uid req, msg = .data uid (.logReq (some req)) → ¬gl.Registered uid) :
    (Record.after gl msg r).Signed = r.Signed := by
  funext m i
  rw [Record.Signed, Record.after_signer h, Record.Signed]

/-- A login signs the slot of its uid. -/
theorem Record.after_login_signed {gl : GameLogic} {r : Record} {uid : Uid} (req : LoginReq)
    (hreg : gl.Registered uid) (m : MapId) (i : SlotId) :
    (Record.after gl (.data uid (.logReq (some req))) r).Signed m i ↔
      (m, i) = (gl.mapOf uid, gl.slotOf uid) ∨ r.Signed m i := by
  simp only [Record.Signed, Record.after, hreg, if_true, Record.act]
  by_cases hc : (m, i) = (gl.mapOf uid, gl.slotOf uid)
  · obtain ⟨rfl, rfl⟩ := Prod.mk.inj hc
    simp only [setCell_self, ne_eq, reduceCtorEq, not_false_iff, true_or]
  · simp only [setCell_of_ne hc, hc, false_or]

/-- What two runs make of one message: states that agree on the signed slots, and as many
broadcasts, which are the same where only signed slots are shown and differ where a slot is shown
that differs. -/
structure StepPair (r : Record) (gl gl' : GameLogic) (msg : GameMsg) (g g' : GameLogic)
    (out out' : List Broadcast) : Prop where
  agree : AgreeOn (Record.after gl msg r).Signed g g'
  length_eq : out'.length = out.length
  out_eq : ShowsSigned (gl, r) msg → out' = out
  out_ne : ∀ m i, Shows gl m i msg → (gl'.mapPlayer m i).uid ≠ (gl.mapPlayer m i).uid →
    (gl'.mapPlayer m i).pointX ≠ (gl.mapPlayer m i).pointX → out' ≠ out

namespace AgreeOn

variable {S S' : MapId → SlotId → Prop} {r : Record} {gl gl' : GameLogic} {uid : Uid}

theorem setPlayer (h : AgreeOn S gl gl') {p p' : Player} (hstate : p'.state = p.state)
    (hshown : S' (gl.mapOf uid) (gl.slotOf uid) → p'.shown = p.shown)
    (hS : ∀ m i, (m, i) ≠ (gl.mapOf uid, gl.slotOf uid) → S' m i → S m i) :
    AgreeOn S' (gl.setPlayer uid p) (gl'.setPlayer uid p') := by
  rw [GameLogic.setPlayer, GameLogic.setPlayer, h.toSameTables.mapOf_eq, h.toSameTables.slotOf_eq]
  exact h.setSlot hstate hshown hS

theorem playerOf_state (h : AgreeOn S gl gl') (u : Uid) :
    (gl'.playerOf u).state = (gl.playerOf u).state := by
  rw [GameLogic.playerOf, h.toSameTables.mapOf_eq, h.toSameTables.slotOf_eq]
  exact h.state_eq _ _

/-- The slot of a player is the same one in both states. -/
theorem mapPlayer_playerOf (h : AgreeOn S gl gl') (u : Uid) :
    gl'.mapPlayer (gl.mapOf u) (gl.slotOf u) = gl'.playerOf u := by
  rw [GameLogic.playerOf, h.toSameTables.mapOf_eq, h.toSameTables.slotOf_eq]

/-- The replies to a login tell of the newcomer and of the listed players. -/
theorem loginReplies_eq (h : AgreeOn S gl gl') (hu : S (gl.mapOf uid) (gl.slotOf uid))
    (he : ∀ e ∈ gl.recipients (gl.mapOf uid), S (gl.mapOf e) (gl.slotOf e)) :
    loginReplies gl' uid = loginReplies gl uid := by
  have henemies : (gl.recipients (gl.mapOf uid)).map (enemyMsgTo gl' uid) =
      (gl.recipients (gl.mapOf uid)).map (enemyMsgTo gl uid) := by
    refine List.map_congr_left fun e hmem => ?_
    obtain ⟨-, hx, hy⟩ := Player.shown_points (h.playerOf_shown (he e hmem))
    simp only [enemyMsgTo, hx, hy]
  obtain ⟨-, hx, hy⟩ := Player.shown_points (h.playerOf_shown hu)
  simp only [loginReplies, h.toSameTables.mapOf_eq, h.recipients_eq, h.mapPlayerNum_eq, henemies,
    hx, hy]

theorem login (h : AgreeOn r.Signed gl gl') (hinv : TableInv gl) (req : LoginReq)
    (hreg : gl.Registered uid) (hlist : ∀ e ∈ gl.recipients (gl.mapOf uid), gl.Registered e) :
    StepPair r gl gl' (.data uid (.logReq (some req))) (gl.login uid req) (gl'.login uid req)
      (loginReplies (gl.login uid req) uid) (loginReplies (gl'.login uid req) uid) := by
  have hsigned := Record.after_login_signed (r := r) req hreg
  have hagree : AgreeOn (Record.after gl (.data uid (.logReq (some req))) r).Signed
      (gl.login uid req) (gl'.login uid req) :=
    h.setPlayer (h.playerOf_state uid) (fun _ => rfl) fun m i hc hs =>
      ((hsigned m i).mp hs).resolve_left hc
  refine ⟨hagree, ?_, fun hs => ?_, ?_⟩
  · simp only [loginReplies, List.length_append, List.length_map, List.length_singleton,
      hagree.toSameTables.mapOf_eq, hagree.recipients_eq]
  · refine hagree.loginReplies_eq ((hsigned _ _).mpr (Or.inl rfl)) fun e he => ?_
    by_cases heq : e = uid
    · subst heq
      exact (hsigned _ _).mpr (Or.inl rfl)
    · exact (hsigned _ _).mpr (Or.inr (hs _ _ ⟨hreg, e, he, heq, rfl, rfl⟩))
  · rintro m i ⟨-, e, he, hne, rfl, rfl⟩ - hx heq
    -- The enemy sits in another slot than the newcomer, so the login has not overwritten it.
    have hslot : (gl.mapOf e, gl.slotOf e) ≠ (gl.mapOf uid, gl.slotOf uid) := fun hc =>
      hne (hinv.eq_of_slot (hlist e he) hreg (Prod.mk.inj hc).1 (Prod.mk.inj hc).2)
    have hslot' : (gl'.mapOf e, gl'.slotOf e) ≠ (gl'.mapOf uid, gl'.slotOf uid) := by
      simpa only [h.toSameTables.mapOf_eq, h.toSameTables.slotOf_eq] using hslot
    have henemy : (gl.login uid req).playerOf e = gl.playerOf e :=
      setPlayer_mapPlayer_of_ne hslot
    have henemy' : (gl'.login uid req).playerOf e = gl'.playerOf e :=
      setPlayer_mapPlayer_of_ne hslot'
    simp only [loginReplies, hagree.toSameTables.mapOf_eq, hagree.recipients_eq] at heq
    have hmap := List.append_inj_right (List.append_inj_left heq (by simp)) (by simp)
    have hmsg := List.map_inj_left.mp hmap e he
    simp only [enemyMsgTo, henemy, henemy', Broadcast.mk.injEq, Rsp.enemyMsg.injEq] at hmsg
    rw [h.mapPlayer_playerOf] at hx
    exact hx hmsg.2.2.2.2.1

theorem start (h : AgreeOn r.Signed gl gl') (hreg : gl.Registered uid) :
    StepPair r gl gl' (.data uid (.gameStartReq (some ⟨true⟩))) (gl.start uid) (gl'.start uid)
      [toMap gl (gl.mapOf uid) .newEnemy (.newEnemy (gl.playerOf uid).uid
          (gl.playerOf uid).pointX (gl.playerOf uid).pointY),
        ⟨1, [uid.toInt], .gameStartRsp, .startRsp true⟩]
      [toMap gl' (gl'.mapOf uid) .newEnemy (.newEnemy (gl'.playerOf uid).uid
          (gl'.playerOf uid).pointX (gl'.playerOf uid).pointY),
        ⟨1, [uid.toInt], .gameStartRsp, .startRsp true⟩] := by
  have hsame : (Record.after gl (.data uid (.gameStartReq (some ⟨true⟩))) r).Signed = r.Signed :=
    Record.after_signed fun _ _ he => by cases he
  refine ⟨?_, rfl, fun hs => ?_, ?_⟩
  · rw [hsame]
    refine ⟨⟨h.uid2Playid_eq, h.socketUid_eq, h.playerNum_eq, h.state_eq⟩, ?_, ?_, h.shown_eq⟩
    · simp only [GameLogic.start, GameLogic.setList, GameLogic.setNum, h.mapPlayerNum_eq,
        h.toSameTables.mapOf_eq]
    · simp only [GameLogic.start, GameLogic.setList, GameLogic.setNum, h.mapUidList_eq,
        h.mapPlayerNum_eq, h.toSameTables.mapOf_eq]
  · obtain ⟨huid, hx, hy⟩ := Player.shown_points (h.playerOf_shown (hs _ _ ⟨hreg, rfl, rfl⟩))
    rw [h.toMap_eq, h.toSameTables.mapOf_eq, huid, hx, hy]
  · rintro m i ⟨-, rfl, rfl⟩ hne - heq
    rw [h.mapPlayer_playerOf] at hne
    simp only [toMap, List.cons.injEq, Broadcast.mk.injEq, Rsp.newEnemy.injEq] at heq
    exact hne heq.1.2.2.2.1

theorem move (h : AgreeOn r.Signed gl gl') (req : MoveReq) (hreg : gl.Registered uid) :
    StepPair r gl gl' (.data uid (.moveReq (some req))) (gl.move uid req) (gl'.move uid req)
      [toMap gl (gl.mapOf uid) .enemyMsg (.enemyMsg (movePlayer (gl.playerOf uid) req.move).uid
          (movePlayer (gl.playerOf uid) req.move).pointX
          (movePlayer (gl.playerOf uid) req.move).pointY)]
      [toMap gl' (gl'.mapOf uid) .enemyMsg (.enemyMsg (movePlayer (gl'.playerOf uid) req.move).uid
          (movePlayer (gl'.playerOf uid) req.move).pointX
          (movePlayer (gl'.playerOf uid) req.move).pointY)] := by
  have hsame : (Record.after gl (.data uid (.moveReq (some req))) r).Signed = r.Signed :=
    Record.after_signed fun _ _ he => by cases he
  have hshown (hs : r.Signed (gl.mapOf uid) (gl.slotOf uid)) :
      (movePlayer (gl'.playerOf uid) req.move).shown =
        (movePlayer (gl.playerOf uid) req.move).shown :=
    movePlayer_shown (h.playerOf_shown hs) _
  refine ⟨?_, rfl, fun hs => ?_, ?_⟩
  · rw [hsame]
    refine h.setPlayer ?_ hshown fun _ _ _ hs => hs
    rw [movePlayer_state, movePlayer_state, h.playerOf_state]
  · obtain ⟨huid, hx, hy⟩ := Player.shown_points (hshown (hs _ _ ⟨hreg, rfl, rfl⟩))
    rw [h.toMap_eq, h.toSameTables.mapOf_eq, huid, hx, hy]
  · rintro m i ⟨-, rfl, rfl⟩ hne - heq
    rw [h.mapPlayer_playerOf] at hne
    simp only [toMap, List.cons.injEq, Broadcast.mk.injEq, Rsp.enemyMsg.injEq,
      movePlayer_uid] at heq
    exact hne heq.1.2.2.2.1

theorem leave (h : AgreeOn r.Signed gl gl') (data : Option MoveReq) (hreg : gl.Registered uid) :
    StepPair r gl gl' (.data uid (.leaveReq data)) gl gl' (leaveRspSend (gl.playerOf uid) true)
      (leaveRspSend (gl'.playerOf uid) true) := by
  have hsame : (Record.after gl (.data uid (.leaveReq data)) r).Signed = r.Signed :=
    Record.after_signed fun _ _ he => by cases he
  refine ⟨hsame ▸ h, rfl, fun hs => ?_, ?_⟩
  · obtain ⟨huid, -⟩ := Player.shown_points (h.playerOf_shown (hs _ _ ⟨hreg, rfl, rfl⟩))
    rw [leaveRspSend, leaveRspSend, huid]
  · rintro m i ⟨-, rfl, rfl⟩ hne - heq
    rw [h.mapPlayer_playerOf] at hne
    simp only [leaveRspSend, List.cons.injEq, Broadcast.mk.injEq] at heq
    exact hne heq.1.2.1.1

theorem close (h : AgreeOn r.Signed gl gl') (l : Vector Uid maxPlayerEachMap)
    (hreg : gl.Registered uid) :
    StepPair r gl gl' (.close uid) (gameRouteDel (gl.setList (gl.mapOf uid) l) uid).2
      (gameRouteDel (gl'.setList (gl'.mapOf uid) l) uid).2
      [toMap (gameRouteDel (gl.setList (gl.mapOf uid) l) uid).2 (gl.mapOf uid) .enemyLeave
        (.enemyLeave (gl.playerOf uid).uid)]
      [toMap (gameRouteDel (gl'.setList (gl'.mapOf uid) l) uid).2 (gl'.mapOf uid) .enemyLeave
        (.enemyLeave (gl'.playerOf uid).uid)] := by
  have hsame : (Record.after gl (.close uid) r).Signed = r.Signed :=
    Record.after_signed fun _ _ he => by cases he
  have hlist : AgreeOn r.Signed (gl.setList (gl.mapOf uid) l) (gl'.setList (gl'.mapOf uid) l) := by
    refine ⟨⟨h.uid2Playid_eq, h.socketUid_eq, h.playerNum_eq, h.state_eq⟩, h.mapPlayerNum_eq, ?_,
      h.shown_eq⟩
    funext m
    simp only [GameLogic.setList_mapUidList, h.mapUidList_eq, h.toSameTables.mapOf_eq]
  refine ⟨hsame ▸ hlist.del uid, rfl, fun hs => ?_, ?_⟩
  · obtain ⟨huid, -⟩ := Player.shown_points (h.playerOf_shown (hs _ _ ⟨hreg, rfl, rfl⟩))
    rw [(hlist.del uid).toMap_eq, h.toSameTables.mapOf_eq, huid]
  · rintro m i ⟨-, rfl, rfl⟩ hne - heq
    rw [h.mapPlayer_playerOf] at hne
    simp only [toMap, List.cons.injEq, Broadcast.mk.injEq, Rsp.enemyLeave.injEq] at heq
    exact hne heq.1.2.2.2

/-- A message that nothing is sent for shows no slot. -/
theorem quiet {msg : GameMsg} {g g' : GameLogic} (hg : AgreeOn r.Signed g g')
    (hlogin : ∀ uid req, msg = .data uid (.logReq (some req)) → ¬gl.Registered uid)
    (hshow : ∀ m i, ¬Shows gl m i msg) : StepPair r gl gl' msg g g' [] [] :=
  ⟨(Record.after_signed hlogin).symm ▸ hg, rfl, fun _ => rfl, fun m i hs => (hshow m i hs).elim⟩

/-- **Step lemma.** What one run does for a message, the other does too. -/
theorem step (h : AgreeOn r.Signed gl gl') (hinv : TableInv gl) {msg : GameMsg} {g : GameLogic}
    {out : List Broadcast} (hstep : GameStep gl msg g out) :
    ∃ g' out', GameStep gl' msg g' out' ∧ StepPair r gl gl' msg g g' out out' := by
  have hreg' {u : Uid} (hu : gl.Registered u) : gl'.Registered u :=
    (h.toSameTables.registered_iff u).mpr hu
  have hnum' (u : Uid) : gl'.mapPlayerNum (gl'.mapOf u) = gl.mapPlayerNum (gl.mapOf u) := by
    rw [h.mapPlayerNum_eq, h.toSameTables.mapOf_eq]
  cases hstep with
  | success uid =>
    exact ⟨_, _, .success uid, quiet (h.append uid).2 (fun _ _ he => by cases he)
      fun _ _ hs => hs⟩
  | ignored hig =>
    have hig' : gl'.Ignores msg := by
      unfold GameLogic.Ignores at hig ⊢
      simpa only [h.toSameTables.registered_iff] using hig
    refine ⟨_, _, .ignored hig', quiet h ?_ fun m i hs => ?_⟩
    · rintro uid req rfl hreg
      exact hig.not_request hreg (by simp)
    · unfold Shows at hs
      split at hs
      · exact hig.not_request hs.1 (by simp)
      · exact hig.not_request hs.1 (by simp)
      · exact hig.not_request hs.1 (by simp)
      · exact hig.not_request hs.1 (by simp)
      · exact hig hs.1
      · exact hs
  | login uid req hreg hnum hlist =>
    refine ⟨_, _, .login uid req (hreg' hreg) (hnum' uid ▸ hnum) fun e he => ?_,
      h.login hinv req hreg hlist⟩
    rw [h.toSameTables.mapOf_eq, h.recipients_eq] at he
    exact hreg' (hlist e he)
  | start uid hreg hnonneg hnum =>
    exact ⟨_, _, .start uid (hreg' hreg) (hnum' uid ▸ hnonneg) (hnum' uid ▸ hnum), h.start hreg⟩
  | move uid req hreg hnum =>
    exact ⟨_, _, .move uid req (hreg' hreg) (hnum' uid ▸ hnum), h.move req hreg⟩
  | leave uid data hreg => exact ⟨_, _, .leave uid data (hreg' hreg), h.leave data hreg⟩
  | close uid l hreg hl hnum =>
    refine ⟨_, _, .close uid l (hreg' hreg) ?_ (hnum' uid ▸ hnum), h.close l hreg⟩
    rw [GameLogic.IsRebuilt, h.socketUid_eq, h.mapUidList_eq, h.toSameTables.mapOf_eq]
    exact hl

end AgreeOn

/-- The states of two runs: the same record, tables that are well formed, and states that agree on
the signed slots. -/
structure SameRun (s t : GameLogic × Record) : Prop where
  record_eq : t.2 = s.2
  agree : AgreeOn s.2.Signed s.1 t.1
  tables : TableInv s.1

theorem SameRun.symm {s t : GameLogic × Record} (h : SameRun s t) : SameRun t s :=
  ⟨h.record_eq.symm, h.record_eq ▸ h.agree.symm, h.agree.toSameTables.tableInv h.tables⟩

theorem SameRun.init (heap heap' : MapId → SlotId → Player) :
    SameRun (avatarStart heap) (avatarStart heap') := by
  refine ⟨rfl, ?_, TableInv.init heap⟩
  have hsigned : (Record.empty).Signed = fun _ _ => False := by
    funext m i
    simp only [Record.Signed, Record.empty, ne_eq, not_true]
  show AgreeOn Record.empty.Signed (gameLogicCreat heap) (gameLogicCreat heap')
  rw [hsigned]
  exact AgreeOn.init heap heap'

/-- A step of one run is one of the other. -/
theorem SameRun.step {s t s' : GameLogic × Record} {msg : GameMsg} {out : List Broadcast}
    (h : SameRun s t) (hstep : avatarMachine.step s msg = .ok (s', out)) :
    ∃ t' out', avatarMachine.step t msg = .ok (t', out') ∧ SameRun s' t' ∧
      StepPair s.2 s.1 t.1 msg s'.1 t'.1 out out' := by
  obtain ⟨hgl, hr⟩ := Machine.withGhost_step_eq_ok.mp hstep
  have hgame : GameStep s.1 msg s'.1 out := disposeQueueEvent_step hgl
  obtain ⟨g', out', hgame', hpair⟩ := h.agree.step h.tables hgame
  have hgl' : avatarMachine.step t msg = .ok ((g', Record.after t.1 msg t.2), out') :=
    Machine.withGhost_step_eq_ok.mpr ⟨disposeQueueEvent_eq_ok.mpr hgame', rfl⟩
  refine ⟨_, _, hgl', ⟨?_, ?_, h.tables.step hgame⟩, hpair⟩
  · rw [hr, h.agree.after_eq, h.record_eq]
  · rw [hr]
    exact hpair.agree

/-- Two runs of the service go in lockstep, and send the same while only signed slots are
shown. -/
theorem avatarMachine_lockstep : avatarMachine.Lockstep ShowsSigned SameRun where
  symm := SameRun.symm
  step h hstep := by
    obtain ⟨t', out', ht, hst', hpair⟩ := h.step hstep
    exact ⟨t', out', ht, hst', hpair.length_eq, hpair.out_eq⟩

/-! ### Telling the contents of a slot -/

/-- The slots that are not signed and whose step is 0 hold the position that they held when the
service started. -/
def Unmoved (heap : MapId → SlotId → Player) (s : GameLogic × Record) : Prop :=
  ∀ m i, ¬s.2.Signed m i → (heap m i).step = 0 →
    (s.1.mapPlayer m i).avatar = (heap m i).avatar

theorem Avatar.move_of_step_eq_zero {a : Avatar} (h : a.step = 0) (move : ℤ) : a.move move = a := by
  obtain ⟨x, y, step⟩ := a
  subst h
  simp only [Avatar.move, Int.sub_zero, Int.add_zero, ite_self]

/-- **Step lemma.** -/
theorem Unmoved.step {heap : MapId → SlotId → Player} {s s' : GameLogic × Record} {msg : GameMsg}
    {out : List Broadcast} (h : Unmoved heap s)
    (hstep : avatarMachine.step s msg = .ok (s', out)) : Unmoved heap s' := by
  obtain ⟨hgl, hr⟩ := Machine.withGhost_step_eq_ok.mp hstep
  have hgame : GameStep s.1 msg s'.1 out := disposeQueueEvent_step hgl
  intro m i hsign hzero
  rw [hr] at hsign
  cases hgame.slots with
  | quiet hq hlogin =>
    rw [Record.after_signed hlogin] at hsign
    rw [(Player.contents_eq_iff.mp (hq m i)).2.2, h m i hsign hzero]
  | login uid req hreg he =>
    rw [Record.after_login_signed req hreg, not_or] at hsign
    rw [he, GameLogic.login, setPlayer_mapPlayer_of_ne hsign.1, h m i hsign.2 hzero]
  | move uid req hreg he =>
    rw [Record.after_signed fun _ _ h => by cases h] at hsign
    have hold := h m i hsign hzero
    by_cases hc : (m, i) = (s.1.mapOf uid, s.1.slotOf uid)
    · obtain ⟨rfl, rfl⟩ := Prod.mk.inj hc
      have hstill : (s.1.playerOf uid).avatar.step = 0 := by
        rw [GameLogic.playerOf, hold]
        exact hzero
      have hown : s'.1.mapPlayer (s.1.mapOf uid) (s.1.slotOf uid) =
          movePlayer (s.1.playerOf uid) req.move := by
        rw [he]
        exact AvatarInv.playerOf_setPlayer s.1 uid _
      rw [hown, movePlayer_avatar, Avatar.move_of_step_eq_zero hstill]
      exact hold
    · rw [he, GameLogic.move, setPlayer_mapPlayer_of_ne hc, hold]

theorem Unmoved.exec {heap : MapId → SlotId → Player} {ok : GameLogic × Record → GameMsg → Prop}
    {is : List GameMsg} {os : List Broadcast} {s : GameLogic × Record}
    (hrun : avatarMachine.Exec ok (avatarStart heap) is os s) : Unmoved heap s :=
  hrun.invariant (P := Unmoved heap) (fun _ _ _ _ => rfl) fun _ _ _ _ h _ hs => h.step hs

/-- An `int` other than the given one. -/
def otherInt (n : ℤ) : ℤ := if n = 0 then 1 else 0

theorem otherInt_ne (n : ℤ) : otherInt n ≠ n := by
  unfold otherInt
  split_ifs <;> omega

/-- A slot contents with another uid than `uid` and another position than `x`, which moves do not
change. -/
def otherPlayer (uid x : ℤ) : Player := ⟨.typeInvalid, 0, otherInt uid, [], otherInt x, 0⟩

/-- A message that has the service show a slot that is not signed, after messages that do not,
tells what `malloc` left there: for another contents the service sends something else. -/
theorem exists_outputs_ne {heap : MapId → SlotId → Player} {is : List GameMsg}
    {os out : List Broadcast} {s s' : GameLogic × Record} {msg : GameMsg}
    (hrun : avatarMachine.Exec ShowsSigned (avatarStart heap) is os s)
    (hstep : avatarMachine.step s msg = .ok (s', out)) (hnot : ¬ShowsSigned s msg)
    (is' : List GameMsg) : ∃ heap',
      avatarMachine.outputs (avatarStart heap') (is ++ msg :: is') ≠
        avatarMachine.outputs (avatarStart heap) (is ++ msg :: is') := by
  simp only [ShowsSigned, not_forall] at hnot
  obtain ⟨m, i, hshow, hsign⟩ := hnot
  obtain ⟨heap', hcell⟩ :
      ∃ heap' : MapId → SlotId → Player,
        heap' m i = otherPlayer (heap m i).uid (s.1.mapPlayer m i).pointX :=
    ⟨fun _ _ => otherPlayer (heap m i).uid (s.1.mapPlayer m i).pointX, rfl⟩
  refine ⟨heap', ?_⟩
  obtain ⟨t, hrun', hst⟩ := avatarMachine_lockstep.exec hrun (SameRun.init heap heap')
  have hnone : s.2.signer m i = none := not_not.mp hsign
  have huid := (AvatarInv.exec hrun).uid_eq m i
  have huid' := (AvatarInv.exec hrun').uid_eq m i
  have hpos := Unmoved.exec hrun' m i (by rwa [hst.record_eq]) (by rw [hcell]; rfl)
  rw [Record.signedUid, hnone] at huid
  rw [Record.signedUid, hst.record_eq, hnone, hcell] at huid'
  rw [hcell] at hpos
  obtain ⟨t', out', hstep', -, hpair⟩ := hst.step hstep
  refine avatarMachine_lockstep.outputs_ne hrun hrun' hst hstep hstep' ?_
  refine hpair.out_ne m i hshow ?_ ?_
  · rw [huid, huid']
    exact otherInt_ne _
  · have hx : (t.1.mapPlayer m i).pointX = otherInt (s.1.mapPlayer m i).pointX :=
      congrArg Avatar.pointX hpos
    rw [hx]
    exact otherInt_ne _

/-- **What the service sends does not depend on what the slots held** exactly if it only shows
slots that are signed. -/
theorem outputs_same_iff (is : List GameMsg) :
    (∀ heap heap', gameMachine.outputs (gameLogicCreat heap') is =
      gameMachine.outputs (gameLogicCreat heap) is) ↔
      ∀ heap, avatarMachine.Meets ShowsSigned (avatarStart heap) is := by
  have hghost (heap : MapId → SlotId → Player) :
      avatarMachine.outputs (avatarStart heap) is = gameMachine.outputs (gameLogicCreat heap) is :=
    Machine.outputs_withGhost Record.after (avatarStart heap) is
  constructor
  · intro hsame heap
    by_contra hnot
    obtain ⟨is₁, msg, is₂, os, s, s', out, rfl, hrun, hstep, hno⟩ :=
      Machine.exists_not_of_not_meets hnot
    obtain ⟨heap', hne⟩ := exists_outputs_ne hrun hstep hno is₂
    exact hne (by rw [hghost, hghost, hsame heap heap'])
  · intro hmeets heap heap'
    rw [← hghost, ← hghost]
    exact avatarMachine_lockstep.outputs_eq (SameRun.init heap heap') (hmeets heap)

end GameServer
