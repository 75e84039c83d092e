import GameServer.Configure.Lines

/-!
# Comments of several lines

`configure_load` keeps in `text_comment` whether a line belongs to a comment that an earlier line
has opened, and sets the flag to 0 at the start of every line. So the lines between one that
contains `/*` and the next one that contains `*/` are read like all others, and make their
assignments. They leave no trace only where other assignments cover theirs: each key that they
assign is assigned again behind them, or has had the same value before.

## Main definitions

* `lastAssigned` : the value of the last assignment of a key.
* `CommentedFile` : a file with a comment, and without the lines between.
* `Covered` : the assignments of the lines between are covered by others.

## Main results

* `comment_lines_ignored_iff` : the lines between have no effect if and only if they are covered.
-/

namespace GameServer

/-! ### The last assignment of a key -/

/-- The value of the last assignment of a key. -/
def lastAssigned (as : List (ConfKey × ConfValue)) (k : ConfKey) : Option ConfValue :=
  (as.filter (·.1 = k)).getLast?.map Prod.snd

theorem lastAssigned_append (as bs : List (ConfKey × ConfValue)) (k : ConfKey) :
    lastAssigned (as ++ bs) k = (lastAssigned bs k).or (lastAssigned as k) := by
  rw [lastAssigned, List.filter_append, List.getLast?_append, lastAssigned, lastAssigned]
  cases (bs.filter (·.1 = k)).getLast? <;> rfl

/-- A field holds the value of its last assignment, and what it held before without one. -/
theorem assign_eq_lastAssigned (f : ConfKey → ConfValue) (as : List (ConfKey × ConfValue))
    (k : ConfKey) : assign f as k = (lastAssigned as k).getD (f k) := by
  induction as using List.reverseRecOn with
  | nil => rfl
  | append_singleton as a ih =>
    rw [lastAssigned_append]
    simp only [assign, List.foldl_append, List.foldl_cons, List.foldl_nil] at ih ⊢
    by_cases hk : k = a.1
    · have hlast : lastAssigned [a] k = some a.2 := by
        rw [hk, lastAssigned, List.filter_cons_of_pos (by simp)]
        rfl
      rw [hlast, hk, Function.update_self]
      rfl
    · have hlast : lastAssigned [a] k = none := by
        rw [lastAssigned, List.filter_cons_of_neg (by simpa using Ne.symm hk)]
        rfl
      rw [hlast, Function.update_of_ne hk, ih]
      rfl

/-! ### Lines that have no effect -/

/-- What the lines `between` assign is covered by the lines before and after them: a key that they
assign is assigned again after them, or has been given the same value before. A fault between is
covered only by the same fault behind it. -/
def Covered (before between after : List (List UInt8)) : Prop :=
  ∀ as, assignments before = .ok as →
    (∀ e, assignments between = .error e → assignments after = .error e) ∧
      ∀ ms ps, assignments between = .ok ms → assignments after = .ok ps →
        ∀ k v, lastAssigned ms k = some v →
          lastAssigned ps k ≠ none ∨ lastAssigned as k = some v

/-- The fields after lines that are read one after the other. -/
def fieldsAfter (lines : List (List UInt8)) (f : ConfKey → ConfValue) :
    Except ConfFault (ConfKey → ConfValue) :=
  (assignments lines).map (assign f)

/-- Covered lines may be left out, whatever the fields held at first. -/
theorem Covered.fieldsAfter_eq {before between after : List (List UInt8)}
    (h : Covered before between after) (f : ConfKey → ConfValue) :
    fieldsAfter (before ++ between ++ after) f = fieldsAfter (before ++ after) f := by
  rw [fieldsAfter, fieldsAfter, List.append_assoc, assignments_append, assignments_append,
    assignments_append]
  cases hbefore : assignments before with
  | error e => rfl
  | ok as =>
    obtain ⟨hfault, hcover⟩ := h as hbefore
    cases hbetween : assignments between with
    | error e =>
      rw [hfault e hbetween]
      rfl
    | ok ms =>
      cases hafter : assignments after with
      | error e => rfl
      | ok ps =>
        refine congrArg Except.ok (funext fun k => ?_)
        rw [assign_eq_lastAssigned, assign_eq_lastAssigned, lastAssigned_append,
          lastAssigned_append, lastAssigned_append]
        cases hm : lastAssigned ms k with
        | none => simp
        | some v =>
          rcases hcover ms ps hbetween hafter k v hm with hp | ha
          · obtain ⟨w, hw⟩ := Option.ne_none_iff_exists'.mp hp
            simp [hw]
          · simp [ha]

/-- A field that holds the same value whatever it held before has been assigned it. -/
theorem eq_some_of_getD_value {o : Option ConfValue} {k : ConfKey} {v : ConfValue}
    (h : ∀ conf : Configure, o.getD (conf.value k) = v) : o = some v := by
  cases o with
  | some w => exact congrArg some (h (Configure.filled 0))
  | none =>
    have hsame := (h (Configure.filled 0)).trans (h (Configure.filled 1)).symm
    exact absurd hsame (Configure.filled_value_ne k)

/-- Lines that may be left out whatever the fields held at first are covered. -/
theorem covered_of_fieldsAfter_eq {before between after : List (List UInt8)}
    (h : ∀ conf : Configure, fieldsAfter (before ++ between ++ after) conf.value =
      fieldsAfter (before ++ after) conf.value) : Covered before between after := by
  intro as hbefore
  have hsame : ∀ conf : Configure,
      ((assignments between >>= fun ms => assignments after >>= fun ps => .ok (ms ++ ps)).map
        fun qs => assign conf.value (as ++ qs)) =
          (assignments after).map fun ps => assign conf.value (as ++ ps) := by
    intro conf
    have hconf := h conf
    rw [fieldsAfter, fieldsAfter, List.append_assoc, assignments_append, assignments_append,
      assignments_append, hbefore] at hconf
    cases hbetween : assignments between with
    | error e =>
      rw [hbetween] at hconf
      cases hafter : assignments after <;> rw [hafter] at hconf <;> exact hconf
    | ok ms =>
      rw [hbetween] at hconf
      cases hafter : assignments after <;> rw [hafter] at hconf <;> exact hconf
  refine ⟨fun e hbetween => ?_, fun ms ps hbetween hafter k v hm => ?_⟩
  · have hconf := hsame (Configure.filled 0)
    rw [hbetween] at hconf
    cases hafter : assignments after with
    | error e' =>
      rw [hafter] at hconf
      exact congrArg Except.error (Except.error.inj hconf).symm
    | ok ps =>
      rw [hafter] at hconf
      cases hconf
  · by_contra hnone
    obtain ⟨hp, ha⟩ := not_or.mp hnone
    have hp : lastAssigned ps k = none := not_ne_iff.mp hp
    -- The field holds `v` with the lines between, so it holds `v` without them.
    refine ha (eq_some_of_getD_value (k := k) fun conf => ?_)
    have hconf := hsame conf
    rw [hbetween, hafter] at hconf
    have hk : assign conf.value (as ++ (ms ++ ps)) k = assign conf.value (as ++ ps) k :=
      congrFun (Except.ok.inj hconf) k
    rw [assign_eq_lastAssigned, assign_eq_lastAssigned, lastAssigned_append,
      lastAssigned_append, lastAssigned_append, hm, hp] at hk
    exact hk.symm

/-! ### A comment of several lines -/

/-- A config file with a line that contains `/*` and the next line that contains `*/`. Every file
that has such lines is of this form, by `exists_fileOf`. -/
structure CommentedFile where
  before : List (List UInt8)
  opening : List UInt8
  between : List (List UInt8)
  closing : List UInt8
  after : List (List UInt8)
  closed : Bool
  lines : ∀ line ∈ before ++ opening :: between ++ closing :: after, nl ∉ line
  opens : ['/'.toUInt8, '*'.toUInt8] <:+: opening
  next : ∀ line ∈ between, ¬['*'.toUInt8, '/'.toUInt8] <:+: line
  closes : ['*'.toUInt8, '/'.toUInt8] <:+: closing

namespace CommentedFile

variable (c : CommentedFile)

/-- The whole file. -/
def file : List UInt8 :=
  fileOf ((c.before ++ [c.opening]) ++ (c.between ++ c.closing :: c.after)) c.closed

/-- The file without the lines between. -/
def stripped : List UInt8 := fileOf ((c.before ++ [c.opening]) ++ c.closing :: c.after) c.closed

/-- The lines up to the one that opens the comment, as `fgets` reads them. -/
def readBefore : List (List UInt8) := fgetsLines [] (fileOf (c.before ++ [c.opening]) true)

/-- The lines between, as `fgets` reads them. -/
def readBetween : List (List UInt8) := fgetsLines [] (fileOf c.between true)

/-- The lines from the one that closes the comment on, as `fgets` reads them. -/
def readAfter : List (List UInt8) := fgetsLines [] (fileOf (c.closing :: c.after) c.closed)

theorem fgetsLines_file :
    fgetsLines [] c.file = c.readBefore ++ c.readBetween ++ c.readAfter := by
  have hne : c.between ++ c.closing :: c.after ≠ [] :=
    List.append_ne_nil_of_right_ne_nil _ (List.cons_ne_nil _ _)
  have houter : fgetsLines [] c.file =
      c.readBefore ++ fgetsLines [] (fileOf (c.between ++ c.closing :: c.after) c.closed) :=
    fgetsLines_fileOf_append hne c.closed
  have hinner : fgetsLines [] (fileOf (c.between ++ c.closing :: c.after) c.closed) =
      c.readBetween ++ c.readAfter :=
    fgetsLines_fileOf_append (List.cons_ne_nil _ _) c.closed
  rw [houter, hinner, List.append_assoc]

theorem fgetsLines_stripped : fgetsLines [] c.stripped = c.readBefore ++ c.readAfter :=
  fgetsLines_fileOf_append (List.cons_ne_nil _ _) _

end CommentedFile

/-- What is read in the loaded `configure` are the fields after its lines. -/
theorem configureLoad_fields (file : List UInt8) (conf : Configure) :
    (configureLoad (some file) (some conf)).map (Option.map Configure.value) =
      (fieldsAfter (fgetsLines [] file) conf.value).map some := by
  rw [configureLoad_value, fieldsAfter]
  cases assignments (fgetsLines [] file) <;> rfl

theorem configureLoad_same {file file' : List UInt8} {conf : Configure} :
    (configureLoad (some file) (some conf)).map (Option.map Configure.value) =
        (configureLoad (some file') (some conf)).map (Option.map Configure.value) ↔
      fieldsAfter (fgetsLines [] file) conf.value =
        fieldsAfter (fgetsLines [] file') conf.value := by
  rw [configureLoad_fields, configureLoad_fields]
  cases fieldsAfter (fgetsLines [] file) conf.value <;>
    cases fieldsAfter (fgetsLines [] file') conf.value <;>
    simp only [Except.map, reduceCtorEq, Except.ok.injEq, Option.some.injEq, Except.error.injEq]

/-- The lines between the one that contains `/*` and the next one that contains `*/` have no
effect if and only if their assignments are covered. -/
theorem comment_lines_ignored_iff (c : CommentedFile) :
    (∀ conf, (configureLoad (some c.file) conf).map (Option.map Configure.value) =
      (configureLoad (some c.stripped) conf).map (Option.map Configure.value)) ↔
      Covered c.readBefore c.readBetween c.readAfter := by
  constructor
  · intro h
    refine covered_of_fieldsAfter_eq fun conf => ?_
    have hsame := configureLoad_same.mp (h (some conf))
    rwa [c.fgetsLines_file, c.fgetsLines_stripped] at hsame
  · rintro h (_ | conf)
    · rfl
    · refine configureLoad_same.mpr ?_
      rw [c.fgetsLines_file, c.fgetsLines_stripped]
      exact h.fieldsAfter_eq conf.value

/-- A comment of three lines, of which the one in the middle could be an assignment. -/
def portInComment : CommentedFile where
  before := []
  opening := "/*".toList.map Char.toUInt8
  between := ["service_port=1 ".toList.map Char.toUInt8]
  closing := "*/".toList.map Char.toUInt8
  after := []
  closed := true
  lines := by decide
  opens := by decide
  next := by decide
  closes := by decide

/-- The port in the comment is loaded. -/
theorem port_in_comment_loaded :
    (configureLoad (some portInComment.file) (some (Configure.filled 0))).map
        (Option.map fun conf => conf.servicePort) = .ok (some 1) ∧
      ¬∀ conf, (configureLoad (some portInComment.file) conf).map (Option.map Configure.value) =
        (configureLoad (some portInComment.stripped) conf).map (Option.map Configure.value) := by
  refine ⟨by decide +kernel, fun h => ?_⟩
  have hfields := configureLoad_same.mp (h (some (Configure.filled 0)))
  have hport := congrArg (Except.map fun f => f ConfKey.servicePort) hfields
  revert hport
  decide +kernel

end GameServer
