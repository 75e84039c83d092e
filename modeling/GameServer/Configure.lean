import GameServer.Library.Machine
import GameServer.Library.Prefix
import Mathlib.Data.Int.Basic
import Mathlib.Data.List.Infix
import Mathlib.Data.List.TakeWhile
import Mathlib.Data.UInt
import Mathlib.Logic.Function.Basic

/-!
# The config file

`configure_load` reads the config file line by line into a `configure` that comes from `malloc`,
and `configure_transform` copies the value of each known key into its field. Fields whose key no
line assigns are left as `malloc` returned them.

A line is read into `buf` and handled as a C string. `key` and `val` are arrays of 64 bytes, zero
at the start; a `Scan` holds the cells written. The value of `service_address` is copied by
`strcpy` into a field of 32 bytes. A write past the end of that field, and a read past the end of
an array, are faults.

The file is meant as a list of assignments, of which the last one to a key counts. `assignment`
is the assignment that a line makes, and `configureLoad_value` says that loading is running
through the assignments.

## Main definitions

* `fgetsLines`, `trim`, `Scan`, `scan`, `lineEntry` : from the file to the keys and values.
* `Configure`, `strcmpEq`, `strcpy`, `atoi`, `configureTransform`, `loadLine`, `configureLoad`.
* `ConfKey`, `Configure.value`, `assignment`, `assignments` : the file as a list of assignments.
* `AssignsAll` : every key is assigned.

## Main results

* `loadLine_value`, `configureLoad_value` : what loading makes of the fields.
* `configureLoad_same_iff` : when it does not matter what the fields held before.
-/

namespace GameServer

/-! ### Lines -/

/-- `MAX_BUF_LEN`. -/
abbrev maxBufLen : ℕ := 1024

/-- `MAX_KEY_LEN`. -/
abbrev maxKeyLen : ℕ := 64

/-- `MAX_VAL_LEN`. -/
abbrev maxValLen : ℕ := 64

/-- The size of the field `service_address`. -/
abbrev addressLen : ℕ := 32

/-- Why loading does not return. -/
inductive ConfFault where
  /-- A write past the end of `service_address`. -/
  | overflow
  /-- A read past the end of an array that holds no terminator. -/
  | unterminated
deriving DecidableEq, Repr

/-- The C string at the start of an array. -/
def cString (a : List UInt8) : List UInt8 := a.takeWhile (· ≠ 0)

/-- What the successive calls of `fgets(buf, MAX_BUF_LEN, file)` return; `line` is what the
present call has read. -/
def fgetsLines : List UInt8 → List UInt8 → List (List UInt8)
  | line, [] => if line = [] then [] else [line]
  | line, c :: file =>
    if c = '\n'.toUInt8 ∨ line.length + 2 = maxBufLen then (line ++ [c]) :: fgetsLines [] file
    else fgetsLines (line ++ [c]) file

/-- The characters that `Trim` cuts. -/
def IsBlank (c : UInt8) : Prop := c = ' '.toUInt8 ∨ c = '\t'.toUInt8 ∨ c = '\n'.toUInt8

instance (c : UInt8) : Decidable (IsBlank c) :=
  inferInstanceAs (Decidable (c = ' '.toUInt8 ∨ c = '\t'.toUInt8 ∨ c = '\n'.toUInt8))

/-- The loop of `Trim`, at the index `n - 1`. A blank at `n - 1` stays; what follows it goes. -/
def trimLoop (s : List UInt8) : ℕ → List UInt8 × ℤ
  | 0 => (s, -1)
  | n + 1 => if IsBlank (s.getD n 0) then trimLoop (s.take (n + 1)) n else (s, n)

/-- `Trim`. -/
def trim (s : List UInt8) : List UInt8 × ℤ := trimLoop s s.length

/-- The cells written of `key` and `val`, and the flag `kv`. -/
structure Scan where
  key : List UInt8
  kv : Bool
  val : List UInt8
deriving DecidableEq, Repr

/-- The loop over the characters of a line. -/
def scan : Scan → List UInt8 → Scan
  | s, [] => s
  | s, c :: buf =>
    if c = ' '.toUInt8 then scan s buf
    else if s.kv = false ∧ c ≠ '='.toUInt8 then
      if maxKeyLen ≤ s.key.length then s
      else scan { s with key := s.key ++ [c] } buf
    else if c = '='.toUInt8 then scan { s with kv := true } buf
    else if maxValLen ≤ s.val.length ∨ c = '#'.toUInt8 then s
    else scan { s with val := s.val ++ [c] } buf

/-- An array of `n` bytes, zero where nothing has been written. -/
def charArray (n : ℕ) (l : List UInt8) : List UInt8 := l ++ List.replicate (n - l.length) 0

/-- What the loop of `configure_load` makes of a line: the arrays `key` and `val` that it passes
to `configure_transform`, or `none` where the line is skipped. The flag `text_comment` is set to 0
at every line, so its test skips none. -/
def lineEntry (line : List UInt8) : Option (List UInt8 × List UInt8) :=
  let buf := (trim (cString line)).1
  if (buf.getD 0 0 ≠ '#'.toUInt8 ∧ (buf.getD 0 0 ≠ '/'.toUInt8 ∨ buf.getD 1 0 ≠ '/'.toUInt8)) ∧
      (['/'.toUInt8, '*'.toUInt8] <:+: buf ∨ ['*'.toUInt8, '/'.toUInt8] <:+: buf) then none
  else if buf.length ≤ 1 ∨ buf.getD 0 0 = '#'.toUInt8 ∨ buf.getD 0 0 = '='.toUInt8 ∨
      buf.getD 0 0 = '/'.toUInt8 then none
  else
    -- The last character is overwritten by the terminator, which the loop copies too.
    let s := scan ⟨[], false, []⟩ (buf.dropLast ++ [0])
    some (charArray maxKeyLen s.key, charArray maxValLen s.val)

/-! ### Fields -/

/-- `configure`. -/
structure Configure where
  serviceAddress : Vector UInt8 addressLen
  servicePort : ℤ
  serviceRoutePort : ℤ
deriving DecidableEq, Repr

/-- The keys that `configure_transform` knows. -/
inductive ConfKey
  | serviceAddress | servicePort | serviceRoutePort
deriving DecidableEq, Repr

/-- The strings `service_address`, `service_port` and `service_route_port`. -/
def ConfKey.name : ConfKey → List UInt8
  | .serviceAddress => "service_address".toList.map Char.toUInt8
  | .servicePort => "service_port".toList.map Char.toUInt8
  | .serviceRoutePort => "service_route_port".toList.map Char.toUInt8

/-- `strcmp(a, s) == STRING_EQUAL` for an array `a` and a string `s`. -/
def strcmpEq : List UInt8 → List UInt8 → Except ConfFault Bool
  | [], _ => .error .unterminated
  | c :: _, [] => .ok (c = 0)
  | c :: a, d :: s => if c = d then strcmpEq a s else .ok false

/-- `strcpy` into the field from the index `i` on. -/
def strcpy (field : Vector UInt8 addressLen) (i : ℕ) :
    List UInt8 → Except ConfFault (Vector UInt8 addressLen)
  | [] => .error .unterminated
  | c :: src =>
    if h : i < addressLen then
      if c = 0 then .ok (field.set i c h) else strcpy (field.set i c h) (i + 1) src
    else .error .overflow

/-- `isspace`. -/
def IsSpace (c : UInt8) : Prop := c = ' '.toUInt8 ∨ 9 ≤ c ∧ c ≤ 13

instance (c : UInt8) : Decidable (IsSpace c) :=
  inferInstanceAs (Decidable (c = ' '.toUInt8 ∨ 9 ≤ c ∧ c ≤ 13))

/-- `isdigit`. -/
def IsDigit (c : UInt8) : Prop := '0'.toUInt8 ≤ c ∧ c ≤ '9'.toUInt8

instance (c : UInt8) : Decidable (IsDigit c) :=
  inferInstanceAs (Decidable ('0'.toUInt8 ≤ c ∧ c ≤ '9'.toUInt8))

/-- The number that the digits at the start of an array continue `n` with. -/
def digits (n : ℤ) : List UInt8 → Except ConfFault ℤ
  | [] => .error .unterminated
  | c :: a => if IsDigit c then digits (10 * n + (c.toNat - 48 : ℕ)) a else .ok n

/-- The `int` that a `strtol` result is converted to, which is within the bounds of `long`. -/
def toCInt (n : ℤ) : ℤ := (max (-(2 ^ 63)) (min n (2 ^ 63 - 1))).bmod (2 ^ 32)

/-- `atoi`, which is `strtol` to the base 10 converted to `int`. -/
def atoi : List UInt8 → Except ConfFault ℤ
  | [] => .error .unterminated
  | c :: a =>
    if IsSpace c then atoi a
    else if c = '-'.toUInt8 then (digits 0 a).map fun n => toCInt (-n)
    else if c = '+'.toUInt8 then (digits 0 a).map toCInt
    else (digits 0 (c :: a)).map toCInt

/-- `configure_transform`, on a `conf` that is not `NULL`. -/
def configureTransform (conf : Configure) (key val : List UInt8) :
    Except ConfFault (Configure × ℤ) := do
  let isAddress ← strcmpEq key ConfKey.serviceAddress.name
  if isAddress then
    let field ← strcpy conf.serviceAddress 0 val
    .ok ({ conf with serviceAddress := field }, 0)
  else
    let isPort ← strcmpEq key ConfKey.servicePort.name
    if isPort then
      let n ← atoi val
      .ok ({ conf with servicePort := n }, 0)
    else
      let isRoutePort ← strcmpEq key ConfKey.serviceRoutePort.name
      if isRoutePort then
        let n ← atoi val
        .ok ({ conf with serviceRoutePort := n }, 0)
      else .ok (conf, -1)

/-- The body of the loop of `configure_load` on one line. -/
def loadLine (conf : Configure) (line : List UInt8) : Except ConfFault Configure :=
  match lineEntry line with
  | none => .ok conf
  | some (key, val) => (configureTransform conf key val).map Prod.fst

/-- The loop of `configure_load`. -/
def loadLines (conf : Configure) : List (List UInt8) → Except ConfFault Configure
  | [] => .ok conf
  | line :: lines => do
    let conf' ← loadLine conf line
    loadLines conf' lines

/-- `configure_load`: `file` is what `fopen` opens, and `conf` what `malloc` returns. -/
def configureLoad (file : Option (List UInt8)) (conf : Option Configure) :
    Except ConfFault (Option Configure) :=
  match file, conf with
  | none, _ => .ok none
  | some _, none => .ok none
  | some bytes, some conf => (loadLines conf (fgetsLines [] bytes)).map some

/-! ### A config file as a list of assignments -/

/-- What a field holds: a string or a number. -/
abbrev ConfValue := List UInt8 ⊕ ℤ

/-- What the services read in the field of a key. -/
def Configure.value (conf : Configure) : ConfKey → ConfValue
  | .serviceAddress => .inl (cString conf.serviceAddress.toList)
  | .servicePort => .inr conf.servicePort
  | .serviceRoutePort => .inr conf.serviceRoutePort

/-- The key of a name. -/
def ConfKey.ofName (s : List UInt8) : Option ConfKey :=
  [ConfKey.serviceAddress, .servicePort, .serviceRoutePort].find? fun k => s = k.name

/-- What the array `val` is read as for a key; an address has to fit into its field. -/
def ConfKey.read (val : List UInt8) : ConfKey → Except ConfFault ConfValue
  | .serviceAddress =>
    if 0 ∈ val.take addressLen then .ok (.inl (cString val)) else .error .overflow
  | .servicePort => (atoi val).map .inr
  | .serviceRoutePort => (atoi val).map .inr

/-- The assignment that a line makes. -/
def assignment (line : List UInt8) : Except ConfFault (Option (ConfKey × ConfValue)) :=
  match lineEntry line with
  | none => .ok none
  | some (key, val) =>
    match ConfKey.ofName (cString key) with
    | none => .ok none
    | some k => (k.read val).map fun v => some (k, v)

/-- The assignments that lines make, in their order. -/
def assignments : List (List UInt8) → Except ConfFault (List (ConfKey × ConfValue))
  | [] => .ok []
  | line :: lines => do
    let a ← assignment line
    let as ← assignments lines
    .ok (a.toList ++ as)

/-- The fields after a list of assignments. -/
def assign (f : ConfKey → ConfValue) (as : List (ConfKey × ConfValue)) : ConfKey → ConfValue :=
  as.foldl (fun f a => Function.update f a.1 a.2) f

/-- An assigned field holds the value of its last assignment, whatever it held before. -/
theorem assign_congr {k : ConfKey} {as : List (ConfKey × ConfValue)} (h : ∃ v, (k, v) ∈ as)
    (f g : ConfKey → ConfValue) : assign f as k = assign g as k := by
  induction as using List.reverseRecOn with
  | nil => simp only [List.not_mem_nil, exists_false] at h
  | append_singleton as a ih =>
    simp only [assign, List.foldl_append, List.foldl_cons, List.foldl_nil] at ih ⊢
    by_cases hk : k = a.1
    · subst hk
      simp only [Function.update_self]
    · simp only [Function.update_of_ne hk]
      refine ih (h.imp fun v hv => ?_)
      simpa only [List.mem_append, List.mem_singleton, Prod.ext_iff, hk, false_and, or_false]
        using hv

/-- A field that is not assigned stays as it is. -/
theorem assign_of_not_mem {k : ConfKey} {as : List (ConfKey × ConfValue)}
    (h : ∀ v, (k, v) ∉ as) (f : ConfKey → ConfValue) : assign f as k = f k := by
  induction as using List.reverseRecOn with
  | nil => rfl
  | append_singleton as a ih =>
    have hk : k ≠ a.1 := by
      rintro rfl
      exact h a.2 (List.mem_append_right _ (List.mem_singleton_self a))
    simp only [assign, List.foldl_append, List.foldl_cons, List.foldl_nil,
      Function.update_of_ne hk] at ih ⊢
    exact ih fun v hv => h v (List.mem_append_left _ hv)

/-! ### Arrays and strings -/

theorem cString_cons_zero (a : List UInt8) : cString (0 :: a) = [] := rfl

theorem cString_cons_of_ne {c : UInt8} (h : c ≠ 0) (a : List UInt8) :
    cString (c :: a) = c :: cString a := by
  simp only [cString, List.takeWhile_cons, h, ne_eq, not_false_iff, decide_true, if_true]

/-- A string followed by its terminator is read back. -/
theorem cString_append_zero {s : List UInt8} (h : 0 ∉ s) (a : List UInt8) :
    cString (s ++ 0 :: a) = s := by
  induction s with
  | nil => rfl
  | cons c s ih =>
    simp only [List.mem_cons, not_or] at h
    rw [List.cons_append, cString_cons_of_ne (Ne.symm h.1), ih h.2]

theorem zero_not_mem_cString (a : List UInt8) : 0 ∉ cString a := by
  intro h
  simpa using List.mem_takeWhile_imp h

theorem length_charArray {n : ℕ} {l : List UInt8} (h : l.length ≤ n) :
    (charArray n l).length = n := by
  simp only [charArray, List.length_append, List.length_replicate]
  omega

/-- The loop over the characters stays within the arrays. -/
theorem scan_length (s : Scan) (buf : List UInt8) (hk : s.key.length ≤ maxKeyLen)
    (hv : s.val.length ≤ maxValLen) :
    (scan s buf).key.length ≤ maxKeyLen ∧ (scan s buf).val.length ≤ maxValLen := by
  induction buf generalizing s with
  | nil => exact ⟨hk, hv⟩
  | cons c buf ih =>
    unfold scan
    split_ifs with hblank hkey hfull heq hend
    · exact ih s hk hv
    · exact ⟨hk, hv⟩
    · refine ih _ ?_ hv
      simp only [List.length_append, List.length_singleton]
      omega
    · exact ih _ hk hv
    · exact ⟨hk, hv⟩
    · refine ih _ hk ?_
      simp only [List.length_append, List.length_singleton]
      omega

/-- The arrays that a line fills have their sizes. -/
theorem lineEntry_length {line key val : List UInt8} (h : lineEntry line = some (key, val)) :
    key.length = maxKeyLen ∧ val.length = maxValLen := by
  simp only [lineEntry] at h
  split_ifs at h
  cases h
  have hlen := scan_length ⟨[], false, []⟩ ((trim (cString line)).1.dropLast ++ [0])
    (Nat.zero_le _) (Nat.zero_le _)
  exact ⟨length_charArray hlen.1, length_charArray hlen.2⟩

/-- A comparison with a string shorter than the array is decided within the array. -/
theorem strcmpEq_of_lt {a s : List UInt8} (hs : 0 ∉ s) (h : s.length < a.length) :
    strcmpEq a s = .ok (decide (cString a = s)) := by
  induction a generalizing s with
  | nil => exact absurd h (Nat.not_lt_zero _)
  | cons c a ih =>
    cases s with
    | nil =>
      by_cases hc : c = 0
      · subst hc
        rfl
      · simp only [strcmpEq, cString_cons_of_ne hc, hc, decide_false, reduceCtorEq]
    | cons d s =>
      simp only [List.mem_cons, not_or] at hs
      by_cases hd : c = d
      · subst hd
        have ih' := ih hs.2 (Nat.lt_of_succ_lt_succ h)
        simp only [strcmpEq, if_true, ih', cString_cons_of_ne (Ne.symm hs.1), List.cons.injEq,
          true_and]
      · by_cases hc : c = 0
        · subst hc
          simp only [strcmpEq, if_neg hd, cString_cons_zero, reduceCtorEq, decide_false]
        · simp only [strcmpEq, if_neg hd, cString_cons_of_ne hc]
          simp only [List.cons.injEq, hd, false_and, decide_false]

/-- A string that fits is copied with its terminator; the rest of the field stays. -/
theorem strcpy_of_mem (field : Vector UInt8 addressLen) {i : ℕ} {src : List UInt8}
    (h : 0 ∈ src.take (addressLen - i)) :
    ∃ field', strcpy field i src = .ok field' ∧ field'.toList =
      field.toList.take i ++ (cString src ++ 0 ::
        field.toList.drop (i + (cString src).length + 1)) := by
  induction src generalizing i field with
  | nil => simp only [List.take_nil, List.not_mem_nil] at h
  | cons c src ih =>
    have hi : i < addressLen := by
      by_contra hi
      rw [Nat.sub_eq_zero_of_le (not_lt.mp hi), List.take_zero] at h
      exact List.not_mem_nil h
    have hlen : i < field.toList.length := by simpa using hi
    by_cases hc : c = 0
    · subst hc
      refine ⟨field.set i 0 hi, ?_, ?_⟩
      · simp only [strcpy, hi, dite_true, if_true]
      · rw [Vector.toList_set, List.set_eq_take_append_cons_drop, if_pos hlen]
        rfl
    · have hsub : addressLen - i = (addressLen - (i + 1)) + 1 := by omega
      rw [hsub, List.take_succ_cons, List.mem_cons] at h
      obtain ⟨field', hcpy, hlist⟩ := ih (field.set i c hi) (i := i + 1)
        (h.resolve_left (Ne.symm hc))
      refine ⟨field', ?_, ?_⟩
      · simp only [strcpy, hi, dite_true, if_neg hc, hcpy]
      · rw [hlist, cString_cons_of_ne hc, Vector.toList_set, List.take_set_succ _ hlen,
          List.drop_set_of_lt (by omega)]
        simp only [List.append_assoc, List.cons_append, List.nil_append, List.length_cons]
        congr 5
        omega

/-- A string that does not fit is written past the end of the field. -/
theorem strcpy_of_not_mem (field : Vector UInt8 addressLen) {i : ℕ} {src : List UInt8}
    (hlen : addressLen - i < src.length) (h : 0 ∉ src.take (addressLen - i)) :
    strcpy field i src = .error .overflow := by
  induction src generalizing i field with
  | nil => exact absurd hlen (Nat.not_lt_zero _)
  | cons c src ih =>
    by_cases hi : i < addressLen
    · have hsub : addressLen - i = (addressLen - (i + 1)) + 1 := by omega
      rw [hsub, List.take_succ_cons, List.mem_cons, not_or] at h
      simp only [strcpy, hi, dite_true, if_neg (Ne.symm h.1)]
      refine ih _ ?_ h.2
      rw [List.length_cons] at hlen
      omega
    · simp only [strcpy, hi, dite_false]

/-! ### What loading makes of the fields -/

theorem ConfKey.name_spec (k : ConfKey) : 0 ∉ k.name ∧ k.name.length < maxKeyLen := by
  cases k <;> decide

/-- The comparisons of `configure_transform` are with the string in the array. -/
theorem strcmpEq_name {key : List UInt8} (h : key.length = maxKeyLen) (k : ConfKey) :
    strcmpEq key k.name = .ok (decide (cString key = k.name)) :=
  strcmpEq_of_lt k.name_spec.1 (h ▸ k.name_spec.2)

theorem ConfKey.ofName_eq_some {s : List UInt8} {k : ConfKey} :
    ConfKey.ofName s = some k ↔ s = k.name := by
  constructor
  · intro h
    simpa using List.find?_some h
  · rintro rfl
    cases k <;> decide

/-- The string that is copied into the address field is the one that is read there. -/
theorem strcpy_value {val : List UInt8} (field : Vector UInt8 addressLen)
    (h : val.length = maxValLen) :
    (strcpy field 0 val).map (fun f => (.inl (cString f.toList) : ConfValue)) =
      ConfKey.serviceAddress.read val := by
  by_cases hfit : 0 ∈ val.take addressLen
  · obtain ⟨field', hcpy, hlist⟩ := strcpy_of_mem field (i := 0) hfit
    rw [hcpy, ConfKey.read, if_pos hfit, Except.map, hlist, List.take_zero, List.nil_append,
      cString_append_zero (zero_not_mem_cString val)]
  · have hcpy := strcpy_of_not_mem field (i := 0) (by simp only [h]; decide) hfit
    rw [hcpy, ConfKey.read, if_neg hfit]
    rfl

/-- Writing a field changes what is read in it. -/
theorem Configure.value_update (conf : Configure) :
    (∀ f, { conf with serviceAddress := f }.value =
      Function.update conf.value .serviceAddress (.inl (cString f.toList))) ∧
    (∀ n, { conf with servicePort := n }.value = Function.update conf.value .servicePort (.inr n)) ∧
    ∀ n, { conf with serviceRoutePort := n }.value =
      Function.update conf.value .serviceRoutePort (.inr n) := by
  refine ⟨fun f => ?_, fun n => ?_, fun n => ?_⟩ <;> funext k <;> cases k <;> rfl

/-- `configure_transform` writes the value into the field of the key. -/
theorem configureTransform_value {key val : List UInt8} (conf : Configure)
    (hkey : key.length = maxKeyLen) (hval : val.length = maxValLen) :
    (configureTransform conf key val).map (fun p => p.1.value) =
      match ConfKey.ofName (cString key) with
      | none => .ok conf.value
      | some k => (k.read val).map (Function.update conf.value k) := by
  obtain ⟨haddress, hport, hroute⟩ := conf.value_update
  cases hk : ConfKey.ofName (cString key) with
  | none =>
    have hne : ∀ k : ConfKey, cString key ≠ k.name := fun k he => by
      rw [ConfKey.ofName_eq_some.mpr he] at hk
      cases hk
    simp only [configureTransform, strcmpEq_name hkey, hne, decide_false, bind, Except.bind,
      Bool.false_eq_true, if_false, Except.map]
  | some k =>
    have hname : ∀ k' : ConfKey, cString key = k'.name ↔ k = k' := fun k' => by
      rw [← ConfKey.ofName_eq_some, hk, Option.some.injEq]
    cases k with
    | serviceAddress =>
      simp only [configureTransform, strcmpEq_name hkey, hname, decide_true, bind, Except.bind,
        if_true, ← strcpy_value conf.serviceAddress hval]
      rcases strcpy conf.serviceAddress 0 val with e | f
      · rfl
      · exact congrArg Except.ok (haddress f)
    | servicePort =>
      simp only [configureTransform, strcmpEq_name hkey, hname, decide_true, decide_false,
        reduceCtorEq, bind, Except.bind, Bool.false_eq_true, if_true, if_false, ConfKey.read]
      rcases atoi val with e | n
      · rfl
      · exact congrArg Except.ok (hport n)
    | serviceRoutePort =>
      simp only [configureTransform, strcmpEq_name hkey, hname, decide_true, decide_false,
        reduceCtorEq, bind, Except.bind, Bool.false_eq_true, if_true, if_false, ConfKey.read]
      rcases atoi val with e | n
      · rfl
      · exact congrArg Except.ok (hroute n)

/-- **Step lemma.** A line makes its assignment. -/
theorem loadLine_value (conf : Configure) (line : List UInt8) :
    (loadLine conf line).map Configure.value =
      (assignment line).map fun a => assign conf.value a.toList := by
  cases hentry : lineEntry line with
  | none => simp only [loadLine, assignment, hentry]; rfl
  | some entry =>
    obtain ⟨key, val⟩ := entry
    obtain ⟨hkey, hval⟩ := lineEntry_length hentry
    have htransform := configureTransform_value conf hkey hval
    have hmap : (loadLine conf line).map Configure.value =
        (configureTransform conf key val).map fun p => p.1.value := by
      simp only [loadLine, hentry]
      rcases configureTransform conf key val with e | p <;> rfl
    rw [hmap, htransform]
    simp only [assignment, hentry]
    cases ConfKey.ofName (cString key) with
    | none => rfl
    | some k =>
      rcases hread : k.read val with e | v
      · simp only [hread, Except.map]
      · simp only [hread, Except.map]
        rfl

/-- **Run lemma.** The lines make their assignments one after the other. -/
theorem loadLines_value (conf : Configure) (lines : List (List UInt8)) :
    (loadLines conf lines).map Configure.value =
      (assignments lines).map (assign conf.value) := by
  induction lines generalizing conf with
  | nil => rfl
  | cons line lines ih =>
    have hline := loadLine_value conf line
    rcases hload : loadLine conf line with e | conf' <;> rcases ha : assignment line with e' | a <;>
      simp only [hload, ha, Except.map, Except.error.injEq, reduceCtorEq, Except.ok.injEq] at hline
    · subst hline
      simp only [loadLines, assignments, hload, ha, bind, Except.bind, Except.map]
    · simp only [loadLines, assignments, hload, ha, bind, Except.bind, ih conf', hline]
      rcases assignments lines with e | as
      · rfl
      · simp only [Except.map, assign, List.foldl_append]

/-- Loading a file that can be opened runs through its assignments. -/
theorem configureLoad_value (bytes : List UInt8) (conf : Configure) :
    (configureLoad (some bytes) (some conf)).map (Option.map Configure.value) =
      (assignments (fgetsLines [] bytes)).map fun as => some (assign conf.value as) := by
  have hmap : ((loadLines conf (fgetsLines [] bytes)).map some).map (Option.map Configure.value) =
      ((loadLines conf (fgetsLines [] bytes)).map Configure.value).map some := by
    cases loadLines conf (fgetsLines [] bytes) <;> rfl
  rw [configureLoad, hmap, loadLines_value]
  cases assignments (fgetsLines [] bytes) <;> rfl

/-! ### Fields that no line assigns -/

/-- A file that can be opened, and is loaded without a fault, assigns every key. -/
def AssignsAll (file : Option (List UInt8)) : Prop :=
  ∀ bytes as, file = some bytes → assignments (fgetsLines [] bytes) = .ok as →
    ∀ k : ConfKey, ∃ v, (k, v) ∈ as

/-- A `configure` that holds `b` everywhere. -/
def Configure.filled (b : UInt8) : Configure := ⟨Vector.replicate addressLen b, b.toNat, b.toNat⟩

theorem Configure.filled_value_ne (k : ConfKey) :
    (Configure.filled 0).value k ≠ (Configure.filled 1).value k := by
  cases k <;> decide

/-- What is read in the loaded `configure` does not depend on what `malloc` left there exactly if
the file assigns every key. -/
theorem configureLoad_same_iff (file : Option (List UInt8)) :
    (∀ conf conf', (configureLoad file (some conf')).map (Option.map Configure.value) =
      (configureLoad file (some conf)).map (Option.map Configure.value)) ↔ AssignsAll file := by
  constructor
  · rintro hsame bytes as rfl has k
    by_contra hnone
    have hkept := assign_of_not_mem (not_exists.mp hnone)
    have heq := hsame (Configure.filled 0) (Configure.filled 1)
    rw [configureLoad_value, configureLoad_value, has] at heq
    have hk := congrFun (Option.some.inj (Except.ok.inj heq)) k
    rw [hkept, hkept] at hk
    exact Configure.filled_value_ne k hk.symm
  · intro hall conf conf'
    cases file with
    | none => rfl
    | some bytes =>
      rw [configureLoad_value, configureLoad_value]
      cases has : assignments (fgetsLines [] bytes) with
      | error e => rfl
      | ok as =>
        have hsame : assign conf'.value as = assign conf.value as :=
          funext fun k => assign_congr (hall bytes as rfl has k) _ _
        simp only [Except.map, hsame]

end GameServer
