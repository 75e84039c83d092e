import GameServer.Configure.Bounds

/-!
# Config files that are written as they should be

A config file consists of assignments, blank lines and lines that are comments. An assignment is
the key, an equals sign and the value, with spaces around the sign, and blanks or a comment behind
the value. This file says what `configure_load` reads back from such a file.

`Trim` keeps one blank at the end of a line, for the statement after it to cut. The newline is
such a blank, so nothing of a value is lost as long as something follows it: only a line that the
end of the file ends right behind its value loses the last character of the value.

## Main definitions

* `Setting`, `Tail`, `LineForm`, `ConfLine` : what a file consists of.
* `rendered` : the file.
* `ConfKey.meaning` : the value of a field for the text in the file.
* `LastValueKept` : where the last line does not lose anything that matters.

## Main results

* `assignments_rendered` : what the lines assign.
* `reads_back_iff` : the values are read back if and only if the last one is kept.
-/

namespace GameServer

/-! ### The parts of a file -/

/-- The characters that keys and values consist of. -/
def IsPlain (c : UInt8) : Prop :=
  c ∉ [0, ' '.toUInt8, '\t'.toUInt8, nl, '='.toUInt8, '#'.toUInt8, '/'.toUInt8, '*'.toUInt8]

instance (c : UInt8) : Decidable (IsPlain c) := inferInstanceAs (Decidable (_ ∉ _))

/-- The blanks within a line. -/
def IsPad (c : UInt8) : Prop := c = ' '.toUInt8 ∨ c = '\t'.toUInt8

instance (c : UInt8) : Decidable (IsPad c) := inferInstanceAs (Decidable (_ ∨ _))

/-- An assignment: a key, and a value that has room. -/
structure Setting where
  key : ConfKey
  value : List UInt8
  plain : ∀ c ∈ value, IsPlain c
  fits : value.length < key.room

/-- What follows a value: blanks, or a space and a comment that neither opens nor closes a comment
of several lines. -/
inductive Tail
  | blanks (ws : List UInt8) (h : ∀ c ∈ ws, IsPad c)
  | comment (text : List UInt8) (line : nl ∉ text)
      (opening : ¬['/'.toUInt8, '*'.toUInt8] <:+: text)
      (closing : ¬['*'.toUInt8, '/'.toUInt8] <:+: text)

/-- What a line consists of: an assignment with spaces before and after the equals sign, blanks, or
a comment. -/
inductive LineForm
  | setting (s : Setting) (before after : ℕ) (tail : Tail)
  | blank (ws : List UInt8) (h : ∀ c ∈ ws, IsPad c)
  | comment (text : List UInt8) (line : nl ∉ text)

def Tail.text : Tail → List UInt8
  | .blanks ws _ => ws
  | .comment text _ _ _ => ' '.toUInt8 :: '#'.toUInt8 :: text

/-- The key and the spaces before the equals sign. -/
def Setting.left (s : Setting) (before : ℕ) : List UInt8 :=
  s.key.name ++ List.replicate before ' '.toUInt8

/-- The spaces behind the equals sign and the value. -/
def Setting.right (s : Setting) (after : ℕ) : List UInt8 :=
  List.replicate after ' '.toUInt8 ++ s.value

def LineForm.text : LineForm → List UInt8
  | .setting s before after tail =>
    (s.left before ++ '='.toUInt8 :: s.right after) ++ tail.text
  | .blank ws _ => ws
  | .comment text _ => '#'.toUInt8 :: text

/-- A line that fits into the buffer with its newline. -/
structure ConfLine where
  form : LineForm
  short : form.text.length < 1023

/-- The file with these lines; the last one may end at the end of the file. -/
def rendered (lines : List ConfLine) (closed : Bool) : List UInt8 :=
  fileOf (lines.map fun l => l.form.text) closed

/-! ### What is meant and what is read -/

/-- The number that `atoi` reads in a string. -/
def number (v : List UInt8) : ℤ :=
  match atoi (v ++ [0]) with
  | .ok n => n
  | .error _ => 0

/-- What a field holds when the text of a value is assigned to it. -/
def ConfKey.meaning (v : List UInt8) : ConfKey → ConfValue
  | .serviceAddress => .inl v
  | .servicePort => .inr (number v)
  | .serviceRoutePort => .inr (number v)

/-- The assignment that a line is meant to make. -/
def LineForm.setting? : LineForm → Option Setting
  | .setting s _ _ _ => some s
  | .blank _ _ => none
  | .comment _ _ => none

/-- The assignment of a line that ends right behind its value. -/
def LineForm.bare : LineForm → Option Setting
  | .setting s _ _ (.blanks [] _) => some s
  | _ => none

/-- The key and the text of the value that are read of a line. -/
def LineForm.read (l : LineForm) (closed : Bool) : Option (ConfKey × List UInt8) :=
  l.setting?.map fun s =>
    (s.key, if closed = false ∧ l.bare.isSome then s.value.dropLast else s.value)

/-! ### Characters -/

theorem isPlain_iff {c : UInt8} : IsPlain c ↔ c ≠ 0 ∧ c ≠ ' '.toUInt8 ∧ c ≠ '\t'.toUInt8 ∧ c ≠ nl ∧
    c ≠ '='.toUInt8 ∧ c ≠ '#'.toUInt8 ∧ c ≠ '/'.toUInt8 ∧ c ≠ '*'.toUInt8 := by
  simp only [IsPlain, List.mem_cons, List.not_mem_nil, or_false, not_or, ne_eq]

theorem ConfKey.plain_name (k : ConfKey) : ∀ c ∈ k.name, IsPlain c := by
  cases k <;> decide +kernel

theorem ConfKey.exists_name_eq (k : ConfKey) : ∃ r, k.name = 's'.toUInt8 :: r ∧ r ≠ [] := by
  cases k <;> exact ⟨_, rfl, List.cons_ne_nil _ _⟩

theorem IsPlain.not_blank {c : UInt8} (h : IsPlain c) : ¬IsBlank c := by
  obtain ⟨_, hspace, htab, hnl, _⟩ := isPlain_iff.mp h
  exact not_or.mpr ⟨hspace, not_or.mpr ⟨htab, hnl⟩⟩

theorem IsPad.blank {c : UInt8} (h : IsPad c) : IsBlank c := h.elim Or.inl (Or.inr ∘ Or.inl)

/-- The characters of an assignment before its tail. -/
theorem Setting.mem_content {s : Setting} {before after : ℕ} {c : UInt8}
    (h : c ∈ s.left before ++ '='.toUInt8 :: s.right after) :
    IsPlain c ∨ c = ' '.toUInt8 ∨ c = '='.toUInt8 := by
  simp only [left, right, List.mem_append, List.mem_cons, List.mem_replicate] at h
  rcases h with (h | h) | h | h | h
  · exact Or.inl (s.key.plain_name c h)
  · exact Or.inr (Or.inl h.2)
  · exact Or.inr (Or.inr h)
  · exact Or.inr (Or.inl h.2)
  · exact Or.inl (s.plain c h)

/-- A character that is neither plain nor a space nor an equals sign is not in an assignment. -/
theorem Setting.not_mem_content (s : Setting) (before after : ℕ) {c : UInt8} (h : ¬IsPlain c)
    (hne : c ≠ ' '.toUInt8 ∧ c ≠ '='.toUInt8) :
    c ∉ s.left before ++ '='.toUInt8 :: s.right after := fun hmem =>
  (mem_content hmem).elim h (not_or.mpr hne)

/-- A pair that begins with none of the characters of the first part is in the second part. -/
theorem pair_infix_of_append_left {a b : UInt8} {l r : List UInt8} (ha : a ∉ l)
    (h : [a, b] <:+: l ++ r) : [a, b] <:+: r := by
  induction l with
  | nil => exact h
  | cons c l ih =>
    obtain ⟨hc, hl⟩ := not_or.mp (mt List.mem_cons.mpr ha)
    rcases List.infix_cons_iff.mp h with h | h
    · exact absurd (List.cons_prefix_cons.mp h).1 hc
    · exact ih hl h

/-- A pair that ends with none of the characters of the second part is in the first part. -/
theorem pair_infix_of_append_right {a b : UInt8} {l r : List UInt8} (hb : b ∉ r)
    (h : [a, b] <:+: l ++ r) : [a, b] <:+: l := by
  have hrev : [b, a] <:+: r.reverse ++ l.reverse := by
    simpa using List.reverse_infix.mpr h
  have hl := pair_infix_of_append_left (by simpa using hb) hrev
  simpa using List.reverse_infix.mpr hl

theorem cString_append {a : List UInt8} (h : 0 ∉ a) (b : List UInt8) :
    cString (a ++ b) = a ++ cString b :=
  List.takeWhile_append_of_pos fun c hc => by
    simpa using fun hzero : c = 0 => h (hzero ▸ hc)

theorem cString_eq_self {a : List UInt8} (h : 0 ∉ a) : cString a = a := by
  simpa [cString] using cString_append h []

/-! ### Keys and values -/

theorem Setting.left_ne (s : Setting) (before : ℕ) :
    ∀ c ∈ s.left before, (decide (c ≠ '='.toUInt8)) = true := by
  intro c hc
  rcases List.mem_append.mp hc with hc | hc
  · exact decide_eq_true (isPlain_iff.mp (s.key.plain_name c hc)).2.2.2.2.1
  · rw [(List.mem_replicate.mp hc).2]
    decide

theorem Setting.filter_left (s : Setting) (before : ℕ) :
    (s.left before).filter (· ≠ ' '.toUInt8) = s.key.name := by
  have hname : s.key.name.filter (· ≠ ' '.toUInt8) = s.key.name :=
    List.filter_eq_self.mpr fun c hc =>
      decide_eq_true (isPlain_iff.mp (s.key.plain_name c hc)).2.1
  rw [left, List.filter_append, hname, List.filter_replicate_of_neg (by decide), List.append_nil]

/-- The key is what stands before the equals sign. -/
theorem Setting.keyOf_append (s : Setting) (before : ℕ) (r : List UInt8) :
    keyOf (s.left before ++ '='.toUInt8 :: r) = s.key.name := by
  rw [keyOf, List.takeWhile_append_of_pos (s.left_ne before),
    List.takeWhile_cons_of_neg (by decide), List.append_nil, s.filter_left]

/-- A line that is cut before its equals sign has the key and no value. -/
theorem Setting.keyOf_left (s : Setting) (before : ℕ) :
    keyOf (s.left before) = s.key.name ∧ valOf (s.left before) = [] := by
  constructor
  · rw [keyOf, List.takeWhile_eq_self_iff.mpr (s.left_ne before), s.filter_left]
  · rw [valOf, List.dropWhile_eq_nil_iff.mpr (s.left_ne before)]
    rfl

/-- The value is what stands between the equals sign and a comment. -/
theorem Setting.valOf_append (s : Setting) (before after : ℕ) {v w : List UInt8}
    (hv : ∀ c ∈ v, IsPlain c) (hw : (w.takeWhile (· ≠ '#'.toUInt8)).filter
      (fun c => c ≠ ' '.toUInt8 ∧ c ≠ '='.toUInt8) = []) :
    valOf (s.left before ++ '='.toUInt8 :: (List.replicate after ' '.toUInt8 ++ (v ++ w))) = v := by
  have hspaces : ∀ c ∈ List.replicate after ' '.toUInt8, decide (c ≠ '#'.toUInt8) = true := by
    intro c hc
    rw [(List.mem_replicate.mp hc).2]
    decide
  have hhash : ∀ c ∈ v, decide (c ≠ '#'.toUInt8) = true := fun c hc =>
    decide_eq_true (isPlain_iff.mp (hv c hc)).2.2.2.2.2.1
  have hkeep : v.filter (fun c => c ≠ ' '.toUInt8 ∧ c ≠ '='.toUInt8) = v :=
    List.filter_eq_self.mpr fun c hc => by
      have hplain := isPlain_iff.mp (hv c hc)
      exact decide_eq_true ⟨hplain.2.1, hplain.2.2.2.2.1⟩
  rw [valOf, List.dropWhile_append_of_pos (s.left_ne before),
    List.dropWhile_cons_of_neg (by decide), List.drop_one, List.tail_cons,
    List.takeWhile_append_of_pos hspaces, List.takeWhile_append_of_pos hhash,
    List.filter_append, List.filter_append, List.filter_replicate_of_neg (by decide),
    List.nil_append, hkeep, hw, List.append_nil]

/-! ### Blanks at the end -/

theorem stem_eq_nil {b : List UInt8} (h : ∀ c ∈ b, IsBlank c) : stem b = [] :=
  List.rdropWhile_eq_nil_iff.mpr fun c hc => decide_eq_true (h c hc)

theorem stem_append_of_eq_nil {b : List UInt8} (h : stem b = []) (a : List UInt8) :
    stem (a ++ b) = stem a := by
  have hdrop : b.reverse.dropWhile (fun c => IsBlank c) = [] := by
    simpa [stem, List.rdropWhile] using h
  simp only [stem, List.rdropWhile, List.reverse_append, List.dropWhile_append, hdrop,
    List.isEmpty_nil, if_true]

theorem stem_append_of_ne_nil {b : List UInt8} (h : stem b ≠ []) (a : List UInt8) :
    stem (a ++ b) = a ++ stem b := by
  have hdrop : (b.reverse.dropWhile fun c => IsBlank c).isEmpty = false := by
    simpa [stem, List.rdropWhile, -List.dropWhile_eq_nil_iff] using h
  simp only [stem, List.rdropWhile, List.reverse_append, List.dropWhile_append, hdrop,
    Bool.false_eq_true, if_false, List.reverse_reverse]

/-- A character that is no blank stays, and so does what stands before it. -/
theorem stem_append_cons {c : UInt8} (h : ¬IsBlank c) (a b : List UInt8) :
    stem (a ++ c :: b) = a ++ c :: stem b := by
  have hcons : stem (c :: b) = c :: stem b := by
    rw [← List.singleton_append]
    by_cases hb : stem b = []
    · rw [stem_append_of_eq_nil hb, hb, ← List.nil_append [c], stem_concat, if_neg h]
    · exact stem_append_of_ne_nil hb [c]
  rw [stem_append_of_ne_nil (by simp [hcons]), hcons]

/-- A line that begins like a known key, and has no mark of a comment, is not skipped. -/
theorem lineText_of_letter {line t : List UInt8} (h : cString line = 's'.toUInt8 :: t)
    (ht : t ≠ []) (hopen : ¬['/'.toUInt8, '*'.toUInt8] <:+: 's'.toUInt8 :: t)
    (hclose : ¬['*'.toUInt8, '/'.toUInt8] <:+: 's'.toUInt8 :: t) :
    lineText line = some (trim ('s'.toUInt8 :: t)).1.dropLast := by
  have hstem : 0 < (stem ('s'.toUInt8 :: t)).length := by
    have happend := stem_append_cons (c := 's'.toUInt8) (by decide) [] t
    rw [List.nil_append, List.nil_append] at happend
    rw [happend]
    exact Nat.succ_pos _
  have htrim := trim_eq ('s'.toUInt8 :: t)
  have hsub : (trim ('s'.toUInt8 :: t)).1 <:+: 's'.toUInt8 :: t := by
    rw [htrim]
    exact (List.take_prefix _ _).isInfix
  have hhead : (trim ('s'.toUInt8 :: t)).1.getD 0 0 = 's'.toUInt8 := by
    rw [htrim, List.take_succ_cons]
    rfl
  have hlen : ¬(trim ('s'.toUInt8 :: t)).1.length ≤ 1 := by
    have hpos := List.length_pos_iff.mpr ht
    rw [htrim, List.length_take, List.length_cons]
    omega
  have hmarks : ¬(['/'.toUInt8, '*'.toUInt8] <:+: (trim ('s'.toUInt8 :: t)).1 ∨
      ['*'.toUInt8, '/'.toUInt8] <:+: (trim ('s'.toUInt8 :: t)).1) :=
    not_or.mpr ⟨fun hpair => hopen (hpair.trans hsub), fun hpair => hclose (hpair.trans hsub)⟩
  have hfirst : ¬('s'.toUInt8 = '#'.toUInt8 ∨ 's'.toUInt8 = '='.toUInt8 ∨
      's'.toUInt8 = '/'.toUInt8) := by decide
  rw [lineText, h]
  simp only [hmarks, and_false, if_false, hhead, hlen, false_or, if_neg hfirst]

/-! ### What a line assigns -/

/-- The end of a line. -/
def lineEnd (closed : Bool) : List UInt8 := if closed then [nl] else []

theorem eq_of_mem_lineEnd {closed : Bool} {c : UInt8} (h : c ∈ lineEnd closed) : c = nl := by
  cases closed with
  | true => exact List.mem_singleton.mp h
  | false => exact absurd h List.not_mem_nil

theorem blank_lineEnd {closed : Bool} : ∀ c ∈ lineEnd closed, IsBlank c := fun _ hc =>
  Or.inr (Or.inr (eq_of_mem_lineEnd hc))

theorem Setting.content_eq_cons (s : Setting) (before after : ℕ) : ∃ t,
    s.left before ++ '='.toUInt8 :: s.right after = 's'.toUInt8 :: t ∧ t ≠ [] := by
  obtain ⟨r, hname, hr⟩ := s.key.exists_name_eq
  exact ⟨_, by rw [left, hname]; rfl, List.append_ne_nil_of_right_ne_nil _ (List.cons_ne_nil _ _)⟩

/-- A value without its last character where it is cut, and else as it is. -/
theorem Setting.plain_dropLast (s : Setting) : ∀ c ∈ s.value.dropLast, IsPlain c :=
  fun c hc => s.plain c (List.mem_of_mem_dropLast hc)

/-- The stem of an assignment without a value ends with the equals sign. -/
theorem Setting.stem_of_nil {s : Setting} (h : s.value = []) (before after : ℕ) :
    stem (s.left before ++ '='.toUInt8 :: s.right after) = s.left before ++ ['='.toUInt8] := by
  rw [stem_append_cons (by decide), right, h, List.append_nil, stem_eq_nil ?_]
  intro c hc
  rw [(List.mem_replicate.mp hc).2]
  exact Or.inl rfl

/-- An assignment with a value is its own stem. -/
theorem Setting.stem_of_ne_nil {s : Setting} (h : s.value ≠ []) (before after : ℕ) :
    stem (s.left before ++ '='.toUInt8 :: s.right after) =
      s.left before ++ '='.toUInt8 :: s.right after := by
  obtain ⟨v, c, hvalue⟩ := (List.eq_nil_or_concat s.value).resolve_left h
  rw [List.concat_eq_append] at hvalue
  have hc : ¬IsBlank c := (s.plain c (by simp [hvalue])).not_blank
  rw [right, hvalue, ← List.append_assoc, ← List.cons_append, ← List.append_assoc, stem_concat,
    if_neg hc]

/-- What is behind a value when nothing is kept there. -/
theorem valOf_tail_nil : (([] : List UInt8).takeWhile (· ≠ '#'.toUInt8)).filter
    (fun c => c ≠ ' '.toUInt8 ∧ c ≠ '='.toUInt8) = [] := rfl

/-- An assignment with blanks behind it loses the last of them. Without blanks it loses the last
character of its value. -/
theorem Setting.cut_blanks (s : Setting) (before after : ℕ) {b : List UInt8}
    (hb : ∀ c ∈ b, IsBlank c) {text : List UInt8}
    (h : text = (trim ((s.left before ++ '='.toUInt8 :: s.right after) ++ b)).1.dropLast) :
    keyOf text = s.key.name ∧ valOf text = if b = [] then s.value.dropLast else s.value := by
  rw [dropLast_trim, stem_append_of_eq_nil (stem_eq_nil hb)] at h
  by_cases hvalue : s.value = []
  · -- Without a value the equals sign is the last character that is no blank.
    rw [s.stem_of_nil hvalue] at h
    rw [hvalue, List.dropLast_nil, ite_self]
    split_ifs at h with hself
    · rw [← hself, List.dropLast_concat] at h
      rw [h]
      exact s.keyOf_left before
    · rw [h]
      have hval := s.valOf_append before 0 (v := []) (by simp) valOf_tail_nil
      exact ⟨s.keyOf_append before [], hval⟩
  · rw [s.stem_of_ne_nil hvalue] at h
    by_cases hbnil : b = []
    · have hval := s.valOf_append before after s.plain_dropLast valOf_tail_nil
      rw [List.append_nil] at hval
      have hright : s.right after ≠ [] := List.append_ne_nil_of_right_ne_nil _ hvalue
      rw [hbnil, List.append_nil, if_pos rfl, List.dropLast_append_cons,
        List.dropLast_cons_of_ne_nil hright, right, List.dropLast_append_of_ne_nil hvalue] at h
      rw [h, if_pos hbnil]
      exact ⟨s.keyOf_append before _, hval⟩
    · have hval := s.valOf_append before after s.plain valOf_tail_nil
      rw [List.append_nil] at hval
      rw [if_neg (by simpa using hbnil)] at h
      rw [h, if_neg hbnil]
      exact ⟨s.keyOf_append before _, hval⟩

/-- An assignment with a comment behind it keeps its value. -/
theorem Setting.cut_comment (s : Setting) (before after : ℕ) (w : List UInt8) {text : List UInt8}
    (h : text = (trim ((s.left before ++ '='.toUInt8 :: s.right after) ++
      ' '.toUInt8 :: '#'.toUInt8 :: w)).1.dropLast) :
    keyOf text = s.key.name ∧ valOf text = s.value := by
  -- What is left behind the value is a space, and a comment unless the hash has been cut.
  have hkept : ∀ y : List UInt8, y.takeWhile (· ≠ '#'.toUInt8) = [] →
      keyOf ((s.left before ++ '='.toUInt8 :: s.right after) ++ ' '.toUInt8 :: y) = s.key.name ∧
      valOf ((s.left before ++ '='.toUInt8 :: s.right after) ++ ' '.toUInt8 :: y) = s.value := by
    intro y hy
    have htail : ((' '.toUInt8 :: y).takeWhile (· ≠ '#'.toUInt8)).filter
        (fun c => c ≠ ' '.toUInt8 ∧ c ≠ '='.toUInt8) = [] := by
      rw [List.takeWhile_cons_of_pos (by decide), hy]
      rfl
    have hval := s.valOf_append before after s.plain htail
    have hkey := s.keyOf_append before (s.right after ++ ' '.toUInt8 :: y)
    rw [← List.append_assoc] at hval
    rw [List.append_assoc, List.cons_append]
    exact ⟨hkey, hval⟩
  have hstem := stem_append_cons (c := '#'.toUInt8) (by decide)
    ((s.left before ++ '='.toUInt8 :: s.right after) ++ [' '.toUInt8]) w
  simp only [List.append_assoc, List.cons_append, List.nil_append] at hstem h hkept
  rw [dropLast_trim, hstem] at h
  split_ifs at h
  · rw [List.dropLast_append_cons, List.dropLast_cons_of_ne_nil (by simp),
      List.dropLast_append_of_ne_nil (by simp),
      List.dropLast_cons_of_ne_nil (List.cons_ne_nil _ _)] at h
    rw [h]
    refine hkept _ ?_
    cases w with
    | nil => rfl
    | cons c w =>
      rw [List.dropLast_cons_of_ne_nil (List.cons_ne_nil _ _), List.takeWhile_cons_of_neg (by simp)]
  · rw [h]
    exact hkept _ (List.takeWhile_cons_of_neg (by simp))

/-- The value of a key, which has room, is read as it is meant. -/
theorem ConfKey.read_eq_meaning {v : List UInt8} (h : 0 ∉ v) {k : ConfKey}
    (hroom : v.length < k.room) : k.read (v ++ [0]) = .ok (k.meaning v) := by
  obtain ⟨x, hx⟩ := ((k.lt_room_iff h).mp hroom).2
  rw [hx]
  cases k with
  | serviceAddress =>
    rw [ConfKey.read] at hx
    split_ifs at hx
    rw [← Except.ok.inj hx, cString_append_zero h]
    rfl
  | servicePort =>
    obtain ⟨n, hn⟩ := exists_atoi_eq_ok v
    rw [ConfKey.read, hn] at hx
    rw [← Except.ok.inj hx, meaning, number, hn]
  | serviceRoutePort =>
    obtain ⟨n, hn⟩ := exists_atoi_eq_ok v
    rw [ConfKey.read, hn] at hx
    rw [← Except.ok.inj hx, meaning, number, hn]

/-- A line with a text that holds a key and a value assigns what the value means. -/
theorem Setting.assignment_eq (s : Setting) {line text v : List UInt8}
    (h : lineText line = some text) (hkey : keyOf text = s.key.name) (hval : valOf text = v)
    (hlen : v.length ≤ s.value.length) :
    assignment line = .ok (some (s.key, s.key.meaning v)) := by
  have hroom : v.length < s.key.room := hlen.trans_lt s.fits
  have hzero : 0 ∉ v := hval ▸ zero_not_mem_valOf (zero_not_mem_lineText h)
  rw [assignment_of_fits h hkey (hval ▸ hroom.trans_le s.key.room_le), hval,
    ConfKey.read_eq_meaning hzero hroom]
  rfl

/-- An assignment with blanks behind it assigns the value, and without blanks what is left of it. -/
theorem Setting.assignment_blanks (s : Setting) (before after : ℕ) {b : List UInt8}
    (hb : ∀ c ∈ b, IsBlank c) :
    assignment ((s.left before ++ '='.toUInt8 :: s.right after) ++ b) =
      .ok (some (s.key, s.key.meaning (if b = [] then s.value.dropLast else s.value))) := by
  obtain ⟨t, hcons, ht⟩ := s.content_eq_cons before after
  have hzero := s.not_mem_content before after (c := 0) (by decide) (by decide)
  have hstar := s.not_mem_content before after (c := '*'.toUInt8) (by decide) (by decide)
  have hother : ∀ c, ¬IsBlank c → c ∉ b := fun c hc hmem => hc (hb c hmem)
  have hstr : cString ((s.left before ++ '='.toUInt8 :: s.right after) ++ b) =
      's'.toUInt8 :: (t ++ b) := by
    rw [cString_append hzero, cString_eq_self (hother 0 (by decide)), hcons, List.cons_append]
  have hmark : '*'.toUInt8 ∉ 's'.toUInt8 :: (t ++ b) := by
    rw [← List.cons_append, ← hcons]
    exact fun hmem => (List.mem_append.mp hmem).elim hstar (hother _ (by decide))
  have htext := lineText_of_letter hstr (List.append_ne_nil_of_left_ne_nil ht _)
    (fun hpair => hmark (hpair.subset (by simp))) (fun hpair => hmark (hpair.subset (by simp)))
  obtain ⟨hkey, hval⟩ := s.cut_blanks before after hb (by rw [hcons, List.cons_append])
  exact s.assignment_eq htext hkey hval (by split_ifs <;> simp)

/-- An assignment with a comment behind it assigns the value. -/
theorem Setting.assignment_comment (s : Setting) (before after : ℕ) {w : List UInt8}
    (hopen : ¬['/'.toUInt8, '*'.toUInt8] <:+: w) (hclose : ¬['*'.toUInt8, '/'.toUInt8] <:+: w) :
    assignment ((s.left before ++ '='.toUInt8 :: s.right after) ++
      ' '.toUInt8 :: '#'.toUInt8 :: w) = .ok (some (s.key, s.key.meaning s.value)) := by
  obtain ⟨t, hcons, ht⟩ := s.content_eq_cons before after
  have hzero := s.not_mem_content before after (c := 0) (by decide) (by decide)
  have hslash := s.not_mem_content before after (c := '/'.toUInt8) (by decide) (by decide)
  have hstar := s.not_mem_content before after (c := '*'.toUInt8) (by decide) (by decide)
  have hstr : cString ((s.left before ++ '='.toUInt8 :: s.right after) ++
      ' '.toUInt8 :: '#'.toUInt8 :: w) =
        's'.toUInt8 :: (t ++ ' '.toUInt8 :: '#'.toUInt8 :: cString w) := by
    rw [cString_append hzero, cString_cons_of_ne (by decide), cString_cons_of_ne (by decide), hcons,
      List.cons_append]
  -- A mark in the line would be a mark in the comment.
  have hmark : ∀ a b : UInt8, a ∉ s.left before ++ '='.toUInt8 :: s.right after →
      a ∉ [' '.toUInt8, '#'.toUInt8] →
      [a, b] <:+: 's'.toUInt8 :: (t ++ ' '.toUInt8 :: '#'.toUInt8 :: cString w) →
      [a, b] <:+: w := by
    intro a b ha ha' hpair
    rw [← List.cons_append, ← hcons] at hpair
    have hbehind := pair_infix_of_append_left ha' (pair_infix_of_append_left ha hpair)
    exact hbehind.trans (List.takeWhile_prefix _).isInfix
  have htext := lineText_of_letter hstr (List.append_ne_nil_of_left_ne_nil ht _)
    (fun hpair => hopen (hmark _ _ hslash (by decide) hpair))
    (fun hpair => hclose (hmark _ _ hstar (by decide) hpair))
  obtain ⟨hkey, hval⟩ := s.cut_comment before after (cString w) (by rw [hcons, List.cons_append])
  exact s.assignment_eq htext hkey hval le_rfl

/-- A line with an assignment assigns the value, unless it ends right behind it. -/
theorem assignment_setting (s : Setting) (before after : ℕ) (tail : Tail) (closed : Bool) :
    assignment ((LineForm.setting s before after tail).text ++ lineEnd closed) =
      .ok (((LineForm.setting s before after tail).read closed).map
        fun p => (p.1, p.1.meaning p.2)) := by
  rw [LineForm.text, List.append_assoc]
  cases tail with
  | blanks ws hws =>
    have hblank : ∀ c ∈ ws ++ lineEnd closed, IsBlank c := fun c hc =>
      (List.mem_append.mp hc).elim (fun hc => (hws c hc).blank) (blank_lineEnd c)
    rw [Tail.text, s.assignment_blanks before after hblank]
    cases ws <;> cases closed <;> rfl
  | comment text hnl hopen hclose =>
    have hnone : ∀ c : UInt8, c ≠ nl → c ∉ lineEnd closed := fun _ hc hmem =>
      hc (eq_of_mem_lineEnd hmem)
    rw [Tail.text, List.cons_append, List.cons_append, s.assignment_comment before after
      (fun hpair => hopen (pair_infix_of_append_right (hnone _ (by decide)) hpair))
      (fun hpair => hclose (pair_infix_of_append_right (hnone _ (by decide)) hpair))]
    cases closed <;> rfl

/-- Blank lines and lines that are comments are skipped. -/
theorem lineText_blank {line : List UInt8} (h : ∀ c ∈ line, IsBlank c) : lineText line = none := by
  have hzero : 0 ∉ line := fun hmem => absurd (h 0 hmem) (by decide)
  have hlen : (trim line).1.length ≤ 1 := by
    rw [trim_eq, stem_eq_nil h]
    exact List.length_take_le _ _
  rw [lineText, cString_eq_self hzero]
  split_ifs
  · rfl
  · rfl
  · next hshort => exact absurd (Or.inl hlen) hshort

theorem lineText_comment (line : List UInt8) : lineText ('#'.toUInt8 :: line) = none := by
  have hhead : (trim (cString ('#'.toUInt8 :: line))).1.getD 0 0 = '#'.toUInt8 := by
    rw [cString_cons_of_ne (by decide), trim_eq, List.take_succ_cons]
    rfl
  rw [lineText]
  simp only [hhead, ne_eq, not_true_eq_false, false_and, if_false, true_or, or_true, if_true]

/-- What a line assigns. -/
theorem assignment_line (l : LineForm) (closed : Bool) :
    assignment (l.text ++ lineEnd closed) =
      .ok ((l.read closed).map fun p => (p.1, p.1.meaning p.2)) := by
  cases l with
  | setting s before after tail => exact assignment_setting s before after tail closed
  | blank ws h =>
    have hskip : lineText (ws ++ lineEnd closed) = none := lineText_blank fun c hc =>
      (List.mem_append.mp hc).elim (fun hc => (h c hc).blank) (blank_lineEnd c)
    rw [LineForm.text, assignment, lineEntry_eq_map, hskip]
    rfl
  | comment text h =>
    have hskip := lineText_comment (text ++ lineEnd closed)
    rw [LineForm.text, List.cons_append, assignment, lineEntry_eq_map, hskip]
    rfl

/-! ### What a file assigns -/

/-- The text of a line has no newline. -/
theorem LineForm.nl_not_mem (l : LineForm) : nl ∉ l.text := by
  have hpad : ∀ ws : List UInt8, (∀ c ∈ ws, IsPad c) → nl ∉ ws := fun ws hws hmem =>
    absurd (hws nl hmem) (by decide)
  cases l with
  | setting s before after tail =>
    have hcontent := s.not_mem_content before after (c := nl) (by decide) (by decide)
    refine fun hmem => (List.mem_append.mp hmem).elim hcontent ?_
    cases tail with
    | blanks ws h => exact hpad ws h
    | comment text h =>
      simp only [Tail.text, List.mem_cons, h, or_false]
      decide
  | blank ws h => exact hpad ws h
  | comment text h =>
    simp only [LineForm.text, List.mem_cons, h, or_false]
    decide

theorem fileOf_singleton (line : List UInt8) (closed : Bool) :
    fileOf [line] closed = line ++ lineEnd closed := by
  cases closed <;> simp [fileOf, lineEnd]

/-- What the one line of a file assigns. -/
theorem assignments_singleton (l : ConfLine) (closed : Bool) :
    assignments (fgetsLines [] (rendered [l] closed)) =
      .ok ((l.form.read closed).toList.map fun p => (p.1, p.1.meaning p.2)) := by
  have hlines := @fgetsLines_of_short _ l.form.nl_not_mem []
    (by simpa using Nat.succ_lt_succ l.short) closed
  rw [rendered, List.map_singleton, fileOf_singleton, lineEnd, hlines, List.nil_append, ← lineEnd]
  split_ifs with hempty
  · -- Nothing is read of an empty line at the end of the file.
    have hline := assignment_line l.form closed
    rw [hempty.1, hempty.2] at hline
    have hskip : assignment ([] ++ lineEnd false) = .ok none := rfl
    rw [hskip] at hline
    rw [hempty.2, assignments]
    cases hread : l.form.read false with
    | none => rfl
    | some p =>
      rw [hread] at hline
      cases hline
  · simp only [assignments, assignment_line, bind, Except.bind, List.append_nil,
      Option.toList_map]

/-- The keys and texts that are read of the lines of a file. -/
def readSettings (lines : List ConfLine) (closed : Bool) : List (ConfKey × List UInt8) :=
  lines.dropLast.filterMap (·.form.read true) ++
    (lines.getLast?.bind (·.form.read closed)).toList

theorem readSettings_append (lines : List ConfLine) (l : ConfLine) (closed : Bool) :
    readSettings (lines ++ [l]) closed =
      readSettings lines true ++ (l.form.read closed).toList := by
  rw [readSettings, List.dropLast_concat, List.getLast?_concat, Option.bind_some]
  rcases List.eq_nil_or_concat lines with rfl | ⟨init, l', rfl⟩
  · rfl
  · rw [List.concat_eq_append, readSettings, List.dropLast_concat, List.getLast?_concat,
      List.filterMap_append]
    cases hread : l'.form.read true <;> simp [hread]

/-- A file assigns what is read of its lines. -/
theorem assignments_rendered (lines : List ConfLine) (closed : Bool) :
    assignments (fgetsLines [] (rendered lines closed)) =
      .ok ((readSettings lines closed).map fun p => (p.1, p.1.meaning p.2)) := by
  induction lines using List.reverseRecOn generalizing closed with
  | nil => cases closed <;> rfl
  | append_singleton lines l ih =>
    have hsplit : fgetsLines [] (rendered (lines ++ [l]) closed) =
        fgetsLines [] (rendered lines true) ++ fgetsLines [] (rendered [l] closed) := by
      rw [rendered, List.map_append]
      exact fgetsLines_fileOf_append (List.cons_ne_nil _ _) closed
    rw [hsplit, assignments_append, ih true, assignments_singleton, readSettings_append,
      List.map_append]
    rfl

/-! ### What is read back -/

/-- The last assignment that a file is meant to make to a key. -/
def lastSetting (lines : List ConfLine) (k : ConfKey) : Option Setting :=
  ((lines.filterMap (·.form.setting?)).filter (·.key = k)).getLast?

/-- The returned `configure` holds for each key the value of its last assignment. -/
def ReadsBack (lines : List ConfLine) (result : Except ConfFault (Option Configure)) : Prop :=
  ∃ conf, result = .ok (some conf) ∧
    ∀ k s, lastSetting lines k = some s → conf.value k = k.meaning s.value

/-- The last line ends with a newline, or does not end right behind a value, or its value means
the same without its last character. -/
def LastValueKept (lines : List ConfLine) (closed : Bool) : Prop :=
  closed = true ∨ ∀ s, lines.getLast?.bind (·.form.bare) = some s →
    s.key.meaning s.value.dropLast = s.key.meaning s.value

/-- The fields that a file leaves are as they are meant, if they were `f` before. -/
def Agrees (f : ConfKey → ConfValue) (lines : List ConfLine) (closed : Bool) : Prop :=
  ∀ k s, lastSetting lines k = some s →
    assign f ((readSettings lines closed).map fun p => (p.1, p.1.meaning p.2)) k =
      k.meaning s.value

theorem LineForm.setting?_of_bare {l : LineForm} {s : Setting} (h : l.bare = some s) :
    l.setting? = some s := by
  cases l with
  | setting s' before after tail =>
    cases tail with
    | blanks ws hws =>
      cases ws with
      | nil => exact h
      | cons c ws => exact nomatch h
    | comment text line opening closing => exact nomatch h
  | blank ws hws => exact nomatch h
  | comment text line => exact nomatch h

theorem lastSetting_append_of_none {l : ConfLine} (h : l.form.setting? = none)
    (lines : List ConfLine) (k : ConfKey) : lastSetting (lines ++ [l]) k = lastSetting lines k := by
  simp only [lastSetting, List.filterMap_append, List.filterMap_cons, h, List.filterMap_nil,
    List.append_nil]

theorem lastSetting_append_of_some {l : ConfLine} {s : Setting} (h : l.form.setting? = some s)
    (lines : List ConfLine) (k : ConfKey) :
    lastSetting (lines ++ [l]) k = if s.key = k then some s else lastSetting lines k := by
  simp only [lastSetting, List.filterMap_append, List.filterMap_cons, h, List.filterMap_nil,
    List.filter_append]
  by_cases hk : s.key = k
  · rw [List.filter_cons_of_pos (by simpa using hk), if_pos hk]
    exact List.getLast?_concat
  · rw [List.filter_cons_of_neg (by simpa using hk), if_neg hk, List.filter_nil, List.append_nil]

theorem assign_append_singleton (f : ConfKey → ConfValue) (as : List (ConfKey × ConfValue))
    (a : ConfKey × ConfValue) (k : ConfKey) :
    assign f (as ++ [a]) k = if a.1 = k then a.2 else assign f as k := by
  simp only [assign, List.foldl_append, List.foldl_cons, List.foldl_nil, Function.update_apply,
    eq_comm]

/-- One more line keeps the agreement exactly if its own value is kept. -/
theorem Agrees.append_iff {f : ConfKey → ConfValue} {lines : List ConfLine}
    (h : Agrees f lines true) (l : ConfLine) (closed : Bool) :
    Agrees f (lines ++ [l]) closed ↔
      (closed = false → ∀ s, l.form.bare = some s →
        s.key.meaning s.value.dropLast = s.key.meaning s.value) := by
  rw [Agrees, readSettings_append, List.map_append]
  cases hset : l.form.setting? with
  | none =>
    have hread : l.form.read closed = none := by rw [LineForm.read, hset]; rfl
    simp only [hread, lastSetting_append_of_none hset, Option.toList_none, List.map_nil,
      List.append_nil]
    refine iff_of_true h fun _ s hbare => ?_
    rw [LineForm.setting?_of_bare hbare] at hset
    cases hset
  | some s =>
    set v := if closed = false ∧ l.form.bare.isSome then s.value.dropLast else s.value with hv
    have hread : l.form.read closed = some (s.key, v) := by rw [LineForm.read, hset]; rfl
    simp only [hread, lastSetting_append_of_some hset, Option.toList_some, List.map_singleton,
      assign_append_singleton]
    have hown : (∀ k s', (if s.key = k then some s else lastSetting lines k) = some s' →
        (if s.key = k then s.key.meaning v else
          assign f ((readSettings lines true).map fun p => (p.1, p.1.meaning p.2)) k) =
            k.meaning s'.value) ↔ s.key.meaning v = s.key.meaning s.value := by
      constructor
      · intro hall
        simpa using hall s.key s (if_pos rfl)
      · intro hmeaning k s' hs'
        split_ifs at hs' ⊢ with hk
        · rw [← Option.some.inj hs', ← hk, hmeaning]
        · exact h k s' hs'
    rw [hown]
    cases hbare : l.form.bare with
    | none =>
      rw [hbare] at hv
      simp [hv]
    | some s' =>
      have hs' : s' = s :=
        Option.some.inj ((LineForm.setting?_of_bare hbare).symm.trans hset)
      rw [hbare] at hv
      cases closed with
      | true => simp [hv]
      | false => simp [hv, hs']

/-- Files whose lines all end with a newline agree with what is meant. -/
theorem agrees_closed (f : ConfKey → ConfValue) (lines : List ConfLine) : Agrees f lines true := by
  induction lines using List.reverseRecOn with
  | nil => exact fun k s h => nomatch h
  | append_singleton lines l ih => exact (ih.append_iff l true).mpr nofun

theorem agrees_iff (f : ConfKey → ConfValue) (lines : List ConfLine) (closed : Bool) :
    Agrees f lines closed ↔ LastValueKept lines closed := by
  rcases List.eq_nil_or_concat lines with rfl | ⟨lines, l, rfl⟩
  · exact iff_of_true (fun k s h => nomatch h) (Or.inr nofun)
  · rw [List.concat_eq_append, (agrees_closed f lines).append_iff l closed, LastValueKept,
      List.getLast?_concat, Option.bind_some]
    cases closed <;> simp

/-- The values of a file that is written as it should be are read back if and only if the last
line does not lose a character that matters. -/
theorem reads_back_iff (lines : List ConfLine) (closed : Bool) (conf : Configure) :
    ReadsBack lines (configureLoad (some (rendered lines closed)) (some conf)) ↔
      LastValueKept lines closed := by
  have hload := configureLoad_value (rendered lines closed) conf
  rw [assignments_rendered] at hload
  rw [← agrees_iff conf.value, ReadsBack, Agrees]
  cases hresult : configureLoad (some (rendered lines closed)) (some conf) with
  | error e =>
    rw [hresult] at hload
    cases hload
  | ok conf' =>
    rw [hresult] at hload
    cases conf' with
    | none => cases hload
    | some conf' =>
      have hvalue : conf'.value = assign conf.value _ := Option.some.inj (Except.ok.inj hload)
      simp only [Except.ok.injEq, Option.some.injEq, exists_eq_left', hvalue]

/-- An address means something else without its last character, unless it is empty. -/
theorem ConfKey.meaning_dropLast_address {v : List UInt8} :
    ConfKey.serviceAddress.meaning v.dropLast = ConfKey.serviceAddress.meaning v ↔ v = [] := by
  simp only [meaning, Sum.inl.injEq]
  constructor
  · intro h
    have hlen := congrArg List.length h
    rw [List.length_dropLast] at hlen
    exact List.length_eq_zero_iff.mp (by omega)
  · rintro rfl
    rfl

/-- A port at the end of the file, without a newline. -/
def lastPort : ConfLine where
  form := .setting ⟨.servicePort, "8000".toList.map Char.toUInt8, by decide +kernel, by decide⟩ 1 1
    (.blanks [] (by simp))
  short := by decide

/-- Its last digit is cut. -/
theorem last_digit_lost :
    (configureLoad (some (rendered [lastPort] false)) (some (Configure.filled 0))).map
        (Option.map fun conf => conf.servicePort) = .ok (some 800) ∧
      ¬ReadsBack [lastPort]
        (configureLoad (some (rendered [lastPort] false)) (some (Configure.filled 0))) := by
  have hload : (configureLoad (some (rendered [lastPort] false))
      (some (Configure.filled 0))).map (Option.map fun conf => conf.servicePort) =
        .ok (some 800) := by decide +kernel
  refine ⟨hload, fun ⟨conf, hresult, hvalue⟩ => ?_⟩
  have hport := hvalue .servicePort _ rfl
  rw [hresult] at hload
  have hnumber : conf.servicePort = 800 := Option.some.inj (Except.ok.inj hload)
  rw [Configure.value, hnumber] at hport
  revert hport
  decide +kernel

end GameServer
