import GameServer.Configure.Lines

/-!
# The buffers of the config file

The loop over the characters of a line checks the lengths of `key` and `val` before it stores, so
it never writes outside them; but it may fill them to the last byte, and then nothing terminates
them. The value of `service_address` is copied into a field half as long as `val`, unchecked.

Whether this happens depends on the lengths of the keys and values in the file: a key has to be
shorter than its array, and the value of a known key has to fit into `val` and, for an address,
into the field.

## Main definitions

* `LineInside`, `StaysInside` : what is written, and handed to `strcmp`, `strcpy` and `atoi`.
* `ConfKey.room`, `LineFits` : the lengths for which a line does no harm.

## Main results

* `stays_inside_iff` : loading stays inside the buffers if and only if every line fits.
-/

namespace GameServer

/-! ### Accesses to the buffers -/

/-- What one line writes and hands on. The cells of a `Scan` are written one after the other. The
key is compared with each of the three names, and the value is passed to `strcpy` or `atoi` where
a comparison succeeds. -/
structure LineInside (line : List UInt8) : Prop where
  written : ∀ text, lineText line = some text →
    (scan ⟨[], false, []⟩ (text ++ [0])).key.length ≤ maxKeyLen ∧
      (scan ⟨[], false, []⟩ (text ++ [0])).val.length ≤ maxValLen
  key : ∀ key val, lineEntry line = some (key, val) → 0 ∈ key
  val : ∀ key val, lineEntry line = some (key, val) →
    ∀ k : ConfKey, strcmpEq key k.name = .ok true → 0 ∈ val

/-- Loading a file writes only inside `key`, `val` and `service_address`, reads only inside the
arrays, and hands on only strings that are terminated inside their arrays. -/
structure StaysInside (file : List UInt8) : Prop where
  lines : ∀ line ∈ fgetsLines [] file, LineInside line
  returns : ∀ conf, ∃ conf', configureLoad (some file) (some conf) = .ok (some conf')

/-! ### Lengths -/

/-- The room for the value of a key: the field of the address, and `val` for a number. -/
def ConfKey.room : ConfKey → ℕ
  | .serviceAddress => addressLen
  | .servicePort => maxValLen
  | .serviceRoutePort => maxValLen

theorem ConfKey.room_le (k : ConfKey) : k.room ≤ maxValLen := by cases k <;> decide

/-- The key of a line fits into its array, and the value of a known key has room. -/
def LineFits (line : List UInt8) : Prop :=
  ∀ text, lineText line = some text → (keyOf text).length < maxKeyLen ∧
    ∀ k : ConfKey, keyOf text = k.name → (valOf text).length < k.room

/-! ### Calls that return -/

/-- A terminated array of digits is read to its end. -/
theorem exists_digits_eq_ok (s : List UInt8) : ∀ n : ℤ, ∃ m, digits n (s ++ [0]) = .ok m := by
  induction s with
  | nil => exact fun n => ⟨n, rfl⟩
  | cons c s ih =>
    intro n
    rw [List.cons_append, digits]
    split
    · exact ih _
    · exact ⟨n, rfl⟩

/-- `atoi` of a terminated string returns. -/
theorem exists_atoi_eq_ok (s : List UInt8) : ∃ n, atoi (s ++ [0]) = .ok n := by
  induction s with
  | nil => exact ⟨_, rfl⟩
  | cons c s ih =>
    have hdigits := exists_digits_eq_ok (c :: s) 0
    rw [List.cons_append, atoi]
    split_ifs
    · exact ih
    · exact Except.exists_map_eq_ok.mpr (exists_digits_eq_ok s 0)
    · exact Except.exists_map_eq_ok.mpr (exists_digits_eq_ok s 0)
    · exact Except.exists_map_eq_ok.mpr hdigits

/-- A terminated value is read for a key exactly if it is a number or fits into the field. -/
theorem ConfKey.exists_read_eq_ok {v : List UInt8} (h : 0 ∉ v) (k : ConfKey) :
    (∃ x, k.read (v ++ [0]) = .ok x) ↔ (k = .serviceAddress → v.length < addressLen) := by
  cases k with
  | serviceAddress =>
    have hmem : 0 ∈ (v ++ [0]).take addressLen ↔ v.length < addressLen := by
      rw [List.take_append, List.mem_append, or_iff_right fun hv => h (List.mem_of_mem_take hv)]
      rcases lt_or_ge v.length addressLen with hlt | hge
      · have hpos : 0 < addressLen - v.length := Nat.sub_pos_of_lt hlt
        rw [List.take_of_length_le hpos]
        simp [hlt]
      · simp [Nat.sub_eq_zero_of_le hge, Nat.not_lt.mpr hge]
    simp only [ConfKey.read, hmem, forall_const]
    split_ifs with hlt <;> simp [hlt]
  | servicePort =>
    exact iff_of_true (Except.exists_map_eq_ok.mpr (exists_atoi_eq_ok v))
      fun h => by cases h
  | serviceRoutePort =>
    exact iff_of_true (Except.exists_map_eq_ok.mpr (exists_atoi_eq_ok v))
      fun h => by cases h

theorem exists_assignments_eq_ok {lines : List (List UInt8)} :
    (∃ as, assignments lines = .ok as) ↔ ∀ line ∈ lines, ∃ a, assignment line = .ok a := by
  induction lines with
  | nil => exact ⟨fun _ => by simp, fun _ => ⟨[], rfl⟩⟩
  | cons line lines ih =>
    rw [List.forall_mem_cons, ← ih]
    simp only [assignments, Except.bind_eq_ok_iff]
    constructor
    · rintro ⟨_, a, ha, as, has, _⟩
      exact ⟨⟨a, ha⟩, as, has⟩
    · rintro ⟨⟨a, ha⟩, as, has⟩
      exact ⟨_, a, ha, as, has, rfl⟩

/-- Loading returns exactly if every line does. -/
theorem exists_configureLoad_eq_ok (file : List UInt8) (conf : Configure) :
    (∃ conf', configureLoad (some file) (some conf) = .ok (some conf')) ↔
      ∀ line ∈ fgetsLines [] file, ∃ a, assignment line = .ok a := by
  have hvalue := configureLoad_value file conf
  rw [← exists_assignments_eq_ok, ← Except.exists_map_eq_ok, ← hvalue, Except.exists_map_eq_ok]
  constructor
  · rintro ⟨conf', h⟩
    exact ⟨some conf', h⟩
  · rintro ⟨conf', h⟩
    cases conf' with
    | some conf' => exact ⟨conf', h⟩
    | none =>
      rw [configureLoad] at h
      cases hl : loadLines conf (fgetsLines [] file) <;> rw [hl] at h <;> cases h

/-! ### Lines -/

/-- The strings in the arrays of a line that is not skipped. -/
theorem exists_lineText {line key val : List UInt8} (h : lineEntry line = some (key, val)) :
    ∃ text, lineText line = some text ∧
      key = charArray maxKeyLen ((keyOf text).take maxKeyLen) ∧
      ((keyOf text).length < maxKeyLen → val = charArray maxValLen ((valOf text).take maxValLen) ∧
        ∀ k : ConfKey, strcmpEq key k.name = .ok true ↔ keyOf text = k.name) := by
  rw [lineEntry_eq_map, Option.map_eq_some_iff] at h
  obtain ⟨text, htext, harrays⟩ := h
  obtain ⟨rfl, rfl⟩ := Prod.mk.inj harrays
  obtain ⟨hkey, hval⟩ := scan_text text
  refine ⟨text, htext, hkey, fun hlen => ⟨hval hlen.le, fun k => ?_⟩⟩
  rw [hkey, strcmpEq_name (length_charArray (List.length_take_le _ _)), Except.ok.injEq,
    decide_eq_true_iff, cString_charArray (zero_not_mem_keyOf (zero_not_mem_lineText htext)) hlen]

/-- A line that fits stays inside the buffers. -/
theorem LineFits.inside {line : List UInt8} (h : LineFits line) : LineInside line where
  written text _ := scan_length ⟨[], false, []⟩ (text ++ [0]) (Nat.zero_le _) (Nat.zero_le _)
  key key val hentry := by
    obtain ⟨text, htext, rfl, -⟩ := exists_lineText hentry
    exact (zero_mem_charArray (zero_not_mem_keyOf (zero_not_mem_lineText htext))).mpr
      (h text htext).1
  val key val hentry k hcmp := by
    obtain ⟨text, htext, -, hrest⟩ := exists_lineText hentry
    obtain ⟨hlen, hroom⟩ := h text htext
    obtain ⟨rfl, hname⟩ := hrest hlen
    exact (zero_mem_charArray (zero_not_mem_valOf (zero_not_mem_lineText htext))).mpr
      ((hroom k ((hname k).mp hcmp)).trans_le k.room_le)

/-- The value of a known key has room where it fits into `val` and can be read. -/
theorem ConfKey.lt_room_iff {v : List UInt8} (h : 0 ∉ v) (k : ConfKey) :
    v.length < k.room ↔ v.length < maxValLen ∧ ∃ x, k.read (v ++ [0]) = .ok x := by
  rw [ConfKey.exists_read_eq_ok h]
  cases k with
  | serviceAddress =>
    exact ⟨fun hlt => ⟨hlt.trans (by decide), fun _ => hlt⟩, fun hlt => hlt.2 rfl⟩
  | servicePort => exact ⟨fun hlt => ⟨hlt, nofun⟩, And.left⟩
  | serviceRoutePort => exact ⟨fun hlt => ⟨hlt, nofun⟩, And.left⟩

/-- A line that fits is loaded. -/
theorem LineFits.exists_assignment {line : List UInt8} (h : LineFits line) :
    ∃ a, assignment line = .ok a := by
  cases htext : lineText line with
  | none => exact ⟨none, by rw [assignment, lineEntry_eq_map, htext]; rfl⟩
  | some text =>
    obtain ⟨hlen, hroom⟩ := h text htext
    cases hname : ConfKey.ofName (keyOf text) with
    | none =>
      have hstr := cString_charArray (zero_not_mem_keyOf (zero_not_mem_lineText htext)) hlen
      refine ⟨none, ?_⟩
      simp only [assignment, lineEntry_eq_map, htext, Option.map_some, (scan_text text).1, hstr,
        hname]
    | some k =>
      have hkey : keyOf text = k.name := ConfKey.ofName_eq_some.mp hname
      obtain ⟨hval, hread⟩ :=
        (k.lt_room_iff (zero_not_mem_valOf (zero_not_mem_lineText htext))).mp (hroom k hkey)
      rw [assignment_of_fits htext hkey hval]
      exact Except.exists_map_eq_ok.mpr hread

/-- A line that stays inside the buffers, and is loaded, fits. -/
theorem LineInside.fits {line : List UInt8} (h : LineInside line)
    (hload : ∃ a, assignment line = .ok a) : LineFits line := by
  intro text htext
  have hzero := zero_not_mem_lineText htext
  obtain ⟨⟨key, val⟩, hentry⟩ : ∃ entry, lineEntry line = some entry :=
    ⟨_, by rw [lineEntry_eq_map, htext]; rfl⟩
  obtain ⟨text', htext', hkey, hrest⟩ := exists_lineText hentry
  obtain rfl := Option.some.inj (htext.symm.trans htext')
  have hlen : (keyOf text).length < maxKeyLen :=
    (zero_mem_charArray (zero_not_mem_keyOf hzero)).mp (hkey ▸ h.key key val hentry)
  refine ⟨hlen, fun k hname => ?_⟩
  obtain ⟨hval, hcmp⟩ := hrest hlen
  have hfits : (valOf text).length < maxValLen :=
    (zero_mem_charArray (zero_not_mem_valOf hzero)).mp
      (hval ▸ h.val key val hentry k ((hcmp k).mpr hname))
  rw [assignment_of_fits htext hname hfits, Except.exists_map_eq_ok] at hload
  exact (k.lt_room_iff (zero_not_mem_valOf hzero)).mpr ⟨hfits, hload⟩

/-- Loading a file stays inside the buffers if and only if every line fits. -/
theorem stays_inside_iff (file : List UInt8) :
    StaysInside file ↔ ∀ line ∈ fgetsLines [] file, LineFits line := by
  constructor
  · intro h line hline
    have hload := (exists_configureLoad_eq_ok file (Configure.filled 0)).mp
      (h.returns (Configure.filled 0))
    exact (h.lines line hline).fits (hload line hline)
  · intro h
    refine ⟨fun line hline => (h line hline).inside, fun conf => ?_⟩
    exact (exists_configureLoad_eq_ok file conf).mpr fun line hline =>
      (h line hline).exists_assignment

/-- A line with an address that does not fit into its field. -/
def longAddress : List UInt8 :=
  "service_address=123.123.123.123.with.a.long.name\n".toList.map Char.toUInt8

/-- The address is written past the end of the field. -/
theorem long_address_overflows :
    configureLoad (some longAddress) (some (Configure.filled 0)) = .error .overflow ∧
      ¬StaysInside longAddress := by
  have hload : configureLoad (some longAddress) (some (Configure.filled 0)) =
      .error .overflow := by decide +kernel
  refine ⟨hload, fun h => ?_⟩
  obtain ⟨conf', hconf⟩ := h.returns (Configure.filled 0)
  rw [hload] at hconf
  cases hconf

end GameServer
