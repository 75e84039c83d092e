import GameServer.Configure
import Mathlib.Data.List.DropRight

/-!
# The lines of the config file

A text file is a list of lines, each ended by a newline except possibly the last one. This file
says what `configure_load` makes of one line, without loops: `trim` keeps one of the blanks at the
end, the last character is cut, and the key and the value are what `keyOf` and `valOf` take from
the rest, as long as they fit into their arrays.

## Main definitions

* `fileOf` : the file with these lines.
* `stem`, `lineText` : what is left of a line when it has been trimmed and cut.
* `keyOf`, `valOf` : the key and the value in a text.

## Main results

* `fgetsLines_fileOf_append` : lines are read one after the other.
* `trim_eq`, `dropLast_trim` : what trimming and cutting leave.
* `lineEntry_eq_map`, `scan_text` : the arrays that a line fills.
* `assignment_of_fits` : what a line assigns whose key and value fit into their arrays.
-/

namespace GameServer

/-! ### Lines and files -/

/-- The newline character. -/
abbrev nl : UInt8 := '\n'.toUInt8

/-- The file with these lines; the last one may end at the end of the file. -/
def fileOf (lines : List (List UInt8)) (closed : Bool) : List UInt8 :=
  let text := lines.flatMap (· ++ [nl])
  if closed then text else text.dropLast

theorem fileOf_append {lines lines' : List (List UInt8)} (h : lines' ≠ []) (closed : Bool) :
    fileOf (lines ++ lines') closed = fileOf lines true ++ fileOf lines' closed := by
  have hne : lines'.flatMap (· ++ [nl]) ≠ [] := by
    obtain ⟨line, lines'', rfl⟩ := List.exists_cons_of_ne_nil h
    simp
  cases closed with
  | true => simp only [fileOf, if_true, List.flatMap_append]
  | false =>
    simp only [fileOf, Bool.false_eq_true, if_false, if_true, List.flatMap_append,
      List.dropLast_append_of_ne_nil hne]

/-- Every file is a list of lines. -/
theorem exists_fileOf (file : List UInt8) :
    ∃ lines closed, (∀ line ∈ lines, nl ∉ line) ∧ file = fileOf lines closed := by
  induction file with
  | nil => exact ⟨[], true, by simp, rfl⟩
  | cons c file ih =>
    obtain ⟨lines, closed, hlines, rfl⟩ := ih
    by_cases hc : c = nl
    · cases lines with
      | nil => exact ⟨[[]], true, by simp, by cases closed <;> simp [fileOf, hc]⟩
      | cons line lines =>
        refine ⟨[] :: line :: lines, closed, List.forall_mem_cons.mpr ⟨by simp, hlines⟩, ?_⟩
        rw [← List.singleton_append (l := line :: lines), fileOf_append (List.cons_ne_nil _ _), hc]
        rfl
    · cases lines with
      | nil => exact ⟨[[c]], false, by simpa using Ne.symm hc, by cases closed <;> rfl⟩
      | cons line lines =>
        obtain ⟨hline, hrest⟩ := List.forall_mem_cons.mp hlines
        refine ⟨(c :: line) :: lines, closed, List.forall_mem_cons.mpr ⟨?_, hrest⟩, ?_⟩
        · exact List.not_mem_cons_of_ne_of_not_mem (Ne.symm hc) hline
        · cases closed <;> simp [fileOf, List.dropLast_cons_of_ne_nil]

/-- What `fgets` has read of a line that ends does not reach into the next lines. -/
theorem fgetsLines_append {a : List UInt8} (h : a.getLast? = some nl) (line b : List UInt8) :
    fgetsLines line (a ++ b) = fgetsLines line a ++ fgetsLines [] b := by
  induction a generalizing line with
  | nil => exact absurd h (by simp)
  | cons c a ih =>
    rw [List.cons_append, fgetsLines, fgetsLines]
    by_cases ha : a = []
    · subst ha
      have hc : c = nl := by simpa using h
      simp only [hc, true_or, if_true, List.nil_append, fgetsLines, List.cons_append]
    · have hlast : a.getLast? = some nl := by
        rwa [List.getLast?_cons_of_ne_nil ha] at h
      split_ifs
      · rw [ih hlast, List.cons_append]
      · exact ih hlast _

/-- The lines are read one after the other. -/
theorem fgetsLines_fileOf_append {lines lines' : List (List UInt8)} (h : lines' ≠ [])
    (closed : Bool) : fgetsLines [] (fileOf (lines ++ lines') closed) =
      fgetsLines [] (fileOf lines true) ++ fgetsLines [] (fileOf lines' closed) := by
  rw [fileOf_append h]
  rcases List.eq_nil_or_concat lines with rfl | ⟨init, line, rfl⟩
  · rfl
  · refine fgetsLines_append ?_ [] _
    simp [fileOf]

/-- A line that fits into the buffer is read as a whole. -/
theorem fgetsLines_of_short {s : List UInt8} (hs : nl ∉ s) {line : List UInt8}
    (h : line.length + s.length + 1 < maxBufLen) (closed : Bool) :
    fgetsLines line (s ++ if closed then [nl] else []) =
      if line ++ s = [] ∧ closed = false then []
      else [line ++ s ++ if closed then [nl] else []] := by
  induction s generalizing line with
  | nil =>
    cases closed with
    | true => simp [fgetsLines]
    | false => simp [fgetsLines]
  | cons c s ih =>
    obtain ⟨hc, hs⟩ := not_or.mp (mt List.mem_cons.mpr hs)
    rw [List.length_cons] at h
    have hsplit : ¬(c = nl ∨ line.length + 2 = maxBufLen) :=
      not_or.mpr ⟨Ne.symm hc, by omega⟩
    rw [List.cons_append, fgetsLines, if_neg hsplit, ih hs (by simp; omega)]
    simp

/-! ### Trimming and cutting -/

/-- A string without the blanks at its end. -/
def stem (s : List UInt8) : List UInt8 := s.rdropWhile fun c => IsBlank c

theorem stem_concat (s : List UInt8) (c : UInt8) :
    stem (s ++ [c]) = if IsBlank c then stem s else s ++ [c] := by
  simp only [stem, List.rdropWhile_concat, decide_eq_true_eq]

theorem isPrefix_stem (s : List UInt8) : stem s <+: s := List.rdropWhile_prefix _ _

theorem length_stem_lt {s : List UInt8} (h : stem s ≠ s) : (stem s).length < s.length :=
  lt_of_le_of_ne (isPrefix_stem s).length_le fun he => h ((isPrefix_stem s).eq_of_length he)

/-- The loop of `Trim` on the part `a` of a string that it has not looked at. -/
theorem trimLoop_eq (a b : List UInt8) : (trimLoop (a ++ b) a.length).1 =
    if stem a = a then a ++ b else a.take ((stem a).length + 1) := by
  induction a using List.reverseRecOn generalizing b with
  | nil => rfl
  | append_singleton a c ih =>
    have hget : ((a ++ [c]) ++ b).getD a.length 0 = c := by simp
    have htake : ((a ++ [c]) ++ b).take (a.length + 1) = a ++ [c] := List.take_left' (by simp)
    rw [List.length_append, List.length_singleton, trimLoop, hget, htake, stem_concat]
    by_cases hc : IsBlank c
    · have hshort : stem a ≠ a ++ [c] := fun he => by
        have hle := (isPrefix_stem a).length_le
        rw [he, List.length_append] at hle
        exact absurd hle (by simp)
      rw [if_pos hc, if_pos hc, if_neg hshort, ih]
      split_ifs with hstem
      · rw [hstem, List.take_of_length_le (by simp)]
      · rw [List.take_append_of_le_length (length_stem_lt hstem)]
    · rw [if_neg hc, if_neg hc, if_pos rfl]

/-- `Trim` keeps one of the blanks at the end. -/
theorem trim_eq (s : List UInt8) : (trim s).1 = s.take ((stem s).length + 1) := by
  have h := trimLoop_eq s []
  rw [List.append_nil] at h
  rw [trim, h]
  split_ifs with hstem
  · rw [hstem, List.take_of_length_le (Nat.le_succ _)]
  · rfl

/-- The cut of the last character removes the blank that `Trim` kept, if there was one. -/
theorem dropLast_trim (s : List UInt8) :
    (trim s).1.dropLast = if stem s = s then s.dropLast else stem s := by
  rw [trim_eq]
  split_ifs with hstem
  · rw [hstem, List.take_of_length_le (Nat.le_succ _)]
  · rw [List.dropLast_eq_take, List.length_take_of_le (length_stem_lt hstem), Nat.succ_sub_one,
      List.take_take, Nat.min_eq_left (Nat.le_succ _)]
    exact (List.prefix_iff_eq_take.mp (isPrefix_stem s)).symm

/-! ### Keys and values -/

/-- The characters before the first equals sign, without the spaces. -/
def keyOf (text : List UInt8) : List UInt8 :=
  (text.takeWhile (· ≠ '='.toUInt8)).filter (· ≠ ' '.toUInt8)

/-- The characters behind the first equals sign and before the next hash, without the spaces and
the equals signs. -/
def valOf (text : List UInt8) : List UInt8 :=
  (((text.dropWhile (· ≠ '='.toUInt8)).drop 1).takeWhile (· ≠ '#'.toUInt8)).filter
    fun c => c ≠ ' '.toUInt8 ∧ c ≠ '='.toUInt8

/-- The characters at which the scan changes or ends. -/
theorem scan_equals (k v r : List UInt8) :
    scan ⟨k, false, v⟩ ('='.toUInt8 :: r) = scan ⟨k, true, v⟩ r := by
  simp +decide [scan]

theorem scan_hash (k v r : List UInt8) :
    scan ⟨k, true, v⟩ ('#'.toUInt8 :: r) = ⟨k, true, v⟩ := by
  simp +decide [scan]

theorem scan_zero_key (k v : List UInt8) : scan ⟨k, false, v⟩ [0] =
    if maxKeyLen ≤ k.length then ⟨k, false, v⟩ else ⟨k ++ [0], false, v⟩ := by
  simp +decide [scan]

theorem scan_zero_val (k v : List UInt8) : scan ⟨k, true, v⟩ [0] =
    if maxValLen ≤ v.length then ⟨k, true, v⟩ else ⟨k, true, v ++ [0]⟩ := by
  simp +decide [scan]

/-- The scan of a part of a line before the first equals sign. -/
theorem scan_before {a : List UInt8} (ha : '='.toUInt8 ∉ a) (k v r : List UInt8)
    (hk : k.length ≤ maxKeyLen) :
    scan ⟨k, false, v⟩ (a ++ r) =
      if k.length + (a.filter (· ≠ ' '.toUInt8)).length ≤ maxKeyLen then
        scan ⟨k ++ a.filter (· ≠ ' '.toUInt8), false, v⟩ r
      else ⟨(k ++ a.filter (· ≠ ' '.toUInt8)).take maxKeyLen, false, v⟩ := by
  induction a generalizing k with
  | nil => simp [hk]
  | cons c a ih =>
    obtain ⟨hc, ha⟩ := not_or.mp (mt List.mem_cons.mpr ha)
    rw [List.cons_append, scan]
    by_cases hspace : c = ' '.toUInt8
    · rw [if_pos hspace, ih ha k hk, List.filter_cons_of_neg (by simpa using hspace)]
    · have hkey : (false = false ∧ c ≠ '='.toUInt8) := ⟨rfl, Ne.symm hc⟩
      rw [if_neg hspace, if_pos hkey, List.filter_cons_of_pos (by simpa using hspace),
        List.length_cons]
      by_cases hfull : maxKeyLen ≤ k.length
      · have hlen : k.length = maxKeyLen := Nat.le_antisymm hk hfull
        rw [if_pos hfull, if_neg (by omega), List.take_left' hlen]
      · rw [if_neg hfull, ih ha _ (by simp; omega)]
        simp only [List.length_append, List.length_singleton, List.append_assoc,
          List.singleton_append, Nat.add_assoc, Nat.add_comm 1]

/-- The scan of a part of a line behind the first equals sign and before the next hash. -/
theorem scan_behind {a : List UInt8} (ha : '#'.toUInt8 ∉ a) (k v r : List UInt8)
    (hv : v.length ≤ maxValLen) :
    scan ⟨k, true, v⟩ (a ++ r) =
      if v.length + (a.filter fun c => c ≠ ' '.toUInt8 ∧ c ≠ '='.toUInt8).length ≤ maxValLen then
        scan ⟨k, true, v ++ a.filter fun c => c ≠ ' '.toUInt8 ∧ c ≠ '='.toUInt8⟩ r
      else
        ⟨k, true,
          (v ++ a.filter fun c => c ≠ ' '.toUInt8 ∧ c ≠ '='.toUInt8).take maxValLen⟩ := by
  induction a generalizing v with
  | nil => simp [hv]
  | cons c a ih =>
    obtain ⟨hc, ha⟩ := not_or.mp (mt List.mem_cons.mpr ha)
    have hkv : ¬(true = false ∧ c ≠ '='.toUInt8) := fun h => absurd h.1 (by decide)
    rw [List.cons_append, scan]
    by_cases hspace : c = ' '.toUInt8
    · rw [if_pos hspace, ih ha v hv, List.filter_cons_of_neg (by simp [hspace])]
    · rw [if_neg hspace, if_neg hkv]
      by_cases heq : c = '='.toUInt8
      · rw [if_pos heq, ih ha v hv, List.filter_cons_of_neg (by simp [heq])]
      · rw [if_neg heq, List.filter_cons_of_pos (by simp [hspace, heq]), List.length_cons]
        by_cases hfull : maxValLen ≤ v.length
        · have hlen : v.length = maxValLen := Nat.le_antisymm hv hfull
          rw [if_pos (Or.inl hfull), if_neg (by omega), List.take_left' hlen]
        · rw [if_neg (not_or.mpr ⟨hfull, Ne.symm hc⟩), ih ha _ (by simp; omega)]
          simp only [List.length_append, List.length_singleton, List.append_assoc,
            List.singleton_append, Nat.add_assoc, Nat.add_comm 1]

/-- A terminator makes no difference where there is room for it. -/
theorem charArray_append_zero {n : ℕ} {l : List UInt8} (h : l.length < n) :
    charArray n (l ++ [0]) = charArray n l := by
  have hsub : n - l.length = (n - (l.length + 1)) + 1 := by omega
  rw [charArray, charArray, List.length_append, List.length_singleton, hsub, List.replicate_succ,
    List.append_assoc, List.singleton_append]

/-- The array holds a terminator exactly if the string is shorter. -/
theorem zero_mem_charArray {n : ℕ} {l : List UInt8} (h : 0 ∉ l) :
    0 ∈ charArray n (l.take n) ↔ l.length < n := by
  have htake : 0 ∉ l.take n := fun hmem => h (List.mem_of_mem_take hmem)
  rw [charArray, List.mem_append, or_iff_right htake, List.mem_replicate, List.length_take]
  simp only [and_true]
  omega

/-- A string that is shorter than the array is read back from it. -/
theorem cString_charArray {n : ℕ} {l : List UInt8} (h : 0 ∉ l) (hlen : l.length < n) :
    cString (charArray n (l.take n)) = l := by
  have hsub : n - l.length = (n - (l.length + 1)) + 1 := by omega
  rw [List.take_of_length_le hlen.le, charArray, hsub, List.replicate_succ,
    cString_append_zero h]

/-- The end of the scan behind the equals sign. -/
theorem scan_value (k b : List UInt8) :
    (scan ⟨k, true, []⟩ (b ++ [0])).key = k ∧
      charArray maxValLen (scan ⟨k, true, []⟩ (b ++ [0])).val =
        charArray maxValLen (((b.takeWhile (· ≠ '#'.toUInt8)).filter
          fun c => c ≠ ' '.toUInt8 ∧ c ≠ '='.toUInt8).take maxValLen) := by
  set c := b.takeWhile (· ≠ '#'.toUInt8) with hc
  set v := c.filter fun c => c ≠ ' '.toUInt8 ∧ c ≠ '='.toUInt8 with hv
  have hhash : '#'.toUInt8 ∉ c := fun h => by simpa using List.mem_takeWhile_imp h
  have hb : b = c ++ b.dropWhile (· ≠ '#'.toUInt8) := List.takeWhile_append_dropWhile.symm
  have hscan := scan_behind hhash k [] (b.dropWhile (· ≠ '#'.toUInt8) ++ [0]) (Nat.zero_le _)
  rw [List.length_nil, Nat.zero_add, List.nil_append, ← hv] at hscan
  rw [hb, List.append_assoc, hscan]
  by_cases hlen : v.length ≤ maxValLen
  · rw [if_pos hlen, List.take_of_length_le hlen]
    cases hd : b.dropWhile (· ≠ '#'.toUInt8) with
    | nil =>
      rw [List.nil_append, scan_zero_val]
      split_ifs with hfull
      · exact ⟨rfl, rfl⟩
      · exact ⟨rfl, charArray_append_zero (not_le.mp hfull)⟩
    | cons d e =>
      -- What ends the value is a hash, at which the scan stops.
      have hd' : d = '#'.toUInt8 := by
        have hnot := List.head?_dropWhile_not (· ≠ '#'.toUInt8) b
        rw [hd] at hnot
        simpa using hnot
      rw [hd', List.cons_append, scan_hash]
      exact ⟨rfl, rfl⟩
  · rw [if_neg hlen]
    exact ⟨rfl, rfl⟩

/-- The arrays hold the key and the value, cut to their sizes; a key that does not fit ends the
scan. -/
theorem scan_text (text : List UInt8) :
    charArray maxKeyLen (scan ⟨[], false, []⟩ (text ++ [0])).key =
        charArray maxKeyLen ((keyOf text).take maxKeyLen) ∧
      ((keyOf text).length ≤ maxKeyLen →
        charArray maxValLen (scan ⟨[], false, []⟩ (text ++ [0])).val =
          charArray maxValLen ((valOf text).take maxValLen)) := by
  set a := text.takeWhile (· ≠ '='.toUInt8) with ha
  have heq : '='.toUInt8 ∉ a := fun h => by simpa using List.mem_takeWhile_imp h
  have htext : text = a ++ text.dropWhile (· ≠ '='.toUInt8) :=
    List.takeWhile_append_dropWhile.symm
  have hkey : keyOf text = a.filter (· ≠ ' '.toUInt8) := rfl
  have hscan := scan_before heq [] [] (text.dropWhile (· ≠ '='.toUInt8) ++ [0]) (Nat.zero_le _)
  rw [List.length_nil, Nat.zero_add, List.nil_append, ← hkey, ← List.append_assoc, ← htext]
    at hscan
  rw [hscan]
  by_cases hlen : (keyOf text).length ≤ maxKeyLen
  · rw [if_pos hlen, List.take_of_length_le hlen, forall_prop_of_true hlen]
    cases hd : text.dropWhile (· ≠ '='.toUInt8) with
    | nil =>
      have hval : valOf text = [] := by rw [valOf, hd]; rfl
      rw [List.nil_append, scan_zero_key, hval]
      split_ifs with hfull
      · exact ⟨rfl, rfl⟩
      · exact ⟨charArray_append_zero (not_le.mp hfull), rfl⟩
    | cons d b =>
      have hd' : d = '='.toUInt8 := by
        have hnot := List.head?_dropWhile_not (· ≠ '='.toUInt8) text
        rw [hd] at hnot
        simpa using hnot
      obtain ⟨hk, hv⟩ := scan_value (keyOf text) b
      rw [hd', List.cons_append, scan_equals, hk, hv, valOf, hd]
      exact ⟨rfl, rfl⟩
  · rw [if_neg hlen]
    exact ⟨rfl, fun h => absurd h hlen⟩

/-! ### What a line assigns -/

/-- What is left of a line that is not skipped, when it has been trimmed and cut. -/
def lineText (line : List UInt8) : Option (List UInt8) :=
  let buf := (trim (cString line)).1
  if (buf.getD 0 0 ≠ '#'.toUInt8 ∧ (buf.getD 0 0 ≠ '/'.toUInt8 ∨ buf.getD 1 0 ≠ '/'.toUInt8)) ∧
      (['/'.toUInt8, '*'.toUInt8] <:+: buf ∨ ['*'.toUInt8, '/'.toUInt8] <:+: buf) then none
  else if buf.length ≤ 1 ∨ buf.getD 0 0 = '#'.toUInt8 ∨ buf.getD 0 0 = '='.toUInt8 ∨
      buf.getD 0 0 = '/'.toUInt8 then none
  else some buf.dropLast

/-- The arrays are filled by a scan of the text and its terminator. -/
theorem lineEntry_eq_map (line : List UInt8) :
    lineEntry line = (lineText line).map fun text =>
      (charArray maxKeyLen (scan ⟨[], false, []⟩ (text ++ [0])).key,
        charArray maxValLen (scan ⟨[], false, []⟩ (text ++ [0])).val) := by
  simp only [lineEntry, lineText]
  split_ifs <;> rfl

/-- The text is a C string. -/
theorem zero_not_mem_lineText {line text : List UInt8} (h : lineText line = some text) :
    0 ∉ text := by
  simp only [lineText] at h
  split_ifs at h
  obtain rfl := Option.some.inj h
  rw [trim_eq]
  exact fun hmem =>
    zero_not_mem_cString line (List.mem_of_mem_take (List.mem_of_mem_dropLast hmem))

theorem zero_not_mem_keyOf {text : List UInt8} (h : 0 ∉ text) : 0 ∉ keyOf text := fun hmem =>
  h ((List.takeWhile_prefix _).subset (List.mem_of_mem_filter hmem))

theorem zero_not_mem_valOf {text : List UInt8} (h : 0 ∉ text) : 0 ∉ valOf text := fun hmem =>
  h ((List.dropWhile_suffix _).subset (List.mem_of_mem_drop
    ((List.takeWhile_prefix _).subset (List.mem_of_mem_filter hmem))))

/-- What stands behind the terminator is not read as digits. -/
theorem digits_append_zero (s a : List UInt8) :
    ∀ n : ℤ, digits n (s ++ 0 :: a) = digits n (s ++ [0]) := by
  induction s with
  | nil => exact fun n => rfl
  | cons c s ih =>
    intro n
    simp only [List.cons_append, digits, ih]

/-- What stands behind the terminator is not read as a number. -/
theorem atoi_append_zero (s a : List UInt8) : atoi (s ++ 0 :: a) = atoi (s ++ [0]) := by
  induction s with
  | nil => rfl
  | cons c s ih =>
    have hdigits := digits_append_zero (c :: s) a
    rw [List.cons_append, List.cons_append] at hdigits
    simp only [List.cons_append, atoi, ih, digits_append_zero s a, hdigits]

/-- A value that fits into its array is read there as the string. -/
theorem ConfKey.read_charArray {v : List UInt8} (h : v.length < maxValLen) (k : ConfKey) :
    k.read (charArray maxValLen v) = k.read (v ++ [0]) := by
  have hsub : maxValLen - v.length = (maxValLen - (v.length + 1)) + 1 := by omega
  rw [charArray, hsub, List.replicate_succ]
  cases k with
  | serviceAddress =>
    have hstr : cString (v ++ 0 :: List.replicate (maxValLen - (v.length + 1)) 0) =
        cString (v ++ [0]) := by
      simp only [cString, List.takeWhile_append, List.takeWhile_cons]
      rfl
    have hmem : 0 ∈ (v ++ 0 :: List.replicate (maxValLen - (v.length + 1)) 0).take addressLen ↔
        0 ∈ (v ++ [0]).take addressLen := by
      rcases lt_or_ge v.length addressLen with hlt | hge
      · obtain ⟨d, hd⟩ := Nat.exists_eq_add_of_lt hlt
        have hsub' : addressLen - v.length = d + 1 := by omega
        simp only [List.take_append, hsub', List.take_succ_cons, List.mem_append, List.mem_cons,
          true_or, or_true]
      · rw [List.take_append_of_le_length hge, List.take_append_of_le_length hge]
    simp only [ConfKey.read, hstr, hmem]
  | servicePort => rw [ConfKey.read, ConfKey.read, atoi_append_zero]
  | serviceRoutePort => rw [ConfKey.read, ConfKey.read, atoi_append_zero]

/-- A line whose key is known and whose value fits assigns the value. -/
theorem assignment_of_fits {line text : List UInt8} (h : lineText line = some text) {k : ConfKey}
    (hkey : keyOf text = k.name) (hval : (valOf text).length < maxValLen) :
    assignment line = (k.read (valOf text ++ [0])).map fun v => some (k, v) := by
  have hlen : (keyOf text).length < maxKeyLen := hkey ▸ k.name_spec.2
  obtain ⟨hk, hv⟩ := scan_text text
  have hname : cString (charArray maxKeyLen ((keyOf text).take maxKeyLen)) = k.name :=
    (cString_charArray (zero_not_mem_keyOf (zero_not_mem_lineText h)) hlen).trans hkey
  simp only [assignment, lineEntry_eq_map, h, Option.map_some, hk, hname, hv hlen.le,
    ConfKey.ofName_eq_some.mpr rfl, List.take_of_length_le hval.le, ConfKey.read_charArray hval]

/-- The assignments of lines that are read one after the other. -/
theorem assignments_append (lines lines' : List (List UInt8)) :
    assignments (lines ++ lines') =
      assignments lines >>= fun as => assignments lines' >>= fun bs => .ok (as ++ bs) := by
  induction lines with
  | nil =>
    rw [List.nil_append]
    cases assignments lines' <;> rfl
  | cons line lines ih =>
    rw [List.cons_append, assignments, assignments, ih]
    cases assignment line with
    | error e => rfl
    | ok a =>
      cases assignments lines with
      | error e => rfl
      | ok as =>
        cases assignments lines' with
        | error e => rfl
        | ok bs => simp [bind, Except.bind]

end GameServer
