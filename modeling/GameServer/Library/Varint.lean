import Mathlib.Data.UInt
import Mathlib.Data.Nat.Basic

/-!
# Variable-length integers and records of them

A varint is a natural number in groups of seven bits, the lowest first; all bytes but the last have
their top bit set. A record is a sequence of fields, each a key byte followed by a varint. Both are
read back without a length: a varint ends by itself, and a record with the bytes.

## Main definitions

* `encodeVarint`, `decodeVarint` : a varint of at most a given number of bytes.
* `encodeFields`, `decodeFields` : a record.

## Main results

* `decodeVarint_encodeVarint`, `decodeFields_encodeFields` : what is written is read back.
* `length_encodeVarint_le`, `length_encodeFields_le` : how long it is.
-/

/-! ### Varints -/

/-- The varint of `n`, in at most `k + 1` bytes. -/
def encodeVarint : ℕ → ℕ → List UInt8
  | 0, n => [UInt8.ofNat n]
  | k + 1, n =>
    if n < 128 then [UInt8.ofNat n] else UInt8.ofNat (n % 128 + 128) :: encodeVarint k (n / 128)

/-- The number that the bytes begin with, and the bytes behind it. -/
def decodeVarint : List UInt8 → Option (ℕ × List UInt8)
  | [] => none
  | b :: bs =>
    if b.toNat < 128 then some (b.toNat, bs)
    else (decodeVarint bs).map fun p => (b.toNat - 128 + 128 * p.1, p.2)

theorem length_encodeVarint_le (k n : ℕ) : (encodeVarint k n).length ≤ k + 1 := by
  induction k generalizing n with
  | zero => exact le_rfl
  | succ k ih =>
    unfold encodeVarint
    split_ifs
    · exact Nat.le_add_left 1 (k + 1)
    · exact Nat.succ_le_succ (ih (n / 128))

/-- A varint that fits its bytes is read back, whatever follows it. -/
theorem decodeVarint_encodeVarint {k n : ℕ} (h : n < 128 ^ (k + 1)) (rest : List UInt8) :
    decodeVarint (encodeVarint k n ++ rest) = some (n, rest) := by
  induction k generalizing n with
  | zero =>
    have hn : n < 128 := by simpa using h
    have hmod : n % 2 ^ 8 = n := Nat.mod_eq_of_lt (by omega)
    simp only [encodeVarint, List.cons_append, List.nil_append, decodeVarint, UInt8.toNat_ofNat',
      hmod, hn, if_true]
  | succ k ih =>
    unfold encodeVarint
    split_ifs with hn
    · have hmod : n % 2 ^ 8 = n := Nat.mod_eq_of_lt (by omega)
      simp only [List.cons_append, List.nil_append, decodeVarint, UInt8.toNat_ofNat', hmod, hn,
        if_true]
    · have hlt : n % 128 + 128 < 2 ^ 8 := by omega
      have hge : ¬n % 128 + 128 < 128 := by omega
      have hdiv : n / 128 < 128 ^ (k + 1) := by
        rw [pow_succ] at h
        exact Nat.div_lt_of_lt_mul (by rwa [Nat.mul_comm])
      simp only [List.cons_append, decodeVarint, UInt8.toNat_ofNat', Nat.mod_eq_of_lt hlt, hge,
        if_false, ih hdiv, Option.map_some, Option.some.injEq, Prod.mk.injEq, and_true]
      omega

/-! ### Records -/

/-- The bytes of a record: for each field its key and its number, in at most `k + 1` bytes. -/
def encodeFields (k : ℕ) (fields : List (UInt8 × ℕ)) : List UInt8 :=
  fields.flatMap fun f => f.1 :: encodeVarint k f.2

/-- The fields of a record of at most `m` fields. -/
def decodeFields : ℕ → List UInt8 → Option (List (UInt8 × ℕ))
  | _, [] => some []
  | 0, _ :: _ => none
  | m + 1, key :: bs => do
    let (n, rest) ← decodeVarint bs
    let fields ← decodeFields m rest
    some ((key, n) :: fields)

theorem length_encodeFields_le (k : ℕ) (fields : List (UInt8 × ℕ)) :
    (encodeFields k fields).length ≤ (k + 2) * fields.length := by
  induction fields with
  | nil => exact le_rfl
  | cons f fields ih =>
    have hf := length_encodeVarint_le k f.2
    simp only [encodeFields, List.flatMap_cons, List.length_append, List.length_cons] at ih ⊢
    rw [Nat.mul_succ]
    omega

/-- A record is read back, field by field. -/
theorem decodeFields_encodeFields {k m : ℕ} {fields : List (UInt8 × ℕ)}
    (h : ∀ f ∈ fields, f.2 < 128 ^ (k + 1)) (hm : fields.length ≤ m) :
    decodeFields m (encodeFields k fields) = some fields := by
  induction fields generalizing m with
  | nil => cases m <;> rfl
  | cons f fields ih =>
    cases m with
    | zero => exact absurd hm (Nat.not_succ_le_zero _)
    | succ m =>
      have hvar := decodeVarint_encodeVarint (h f List.mem_cons_self) (encodeFields k fields)
      have hrest := ih (fun f' hf' => h f' (List.mem_cons_of_mem f hf')) (Nat.le_of_succ_le_succ hm)
      show decodeFields (m + 1) (f.1 :: (encodeVarint k f.2 ++ encodeFields k fields)) = _
      simp only [decodeFields, hvar, Option.bind_eq_bind, Option.bind_some, hrest]
