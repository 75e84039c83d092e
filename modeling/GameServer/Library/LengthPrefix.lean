import Mathlib.Data.List.Basic

/-!
# Streams of length-prefixed frames

A stream over an alphabet whose symbols can be read as sizes: a frame is a symbol and as many
symbols as its size says. `LengthPrefix.frames` are the bodies of the complete frames of a stream,
in order; what follows the last of them is an incomplete frame or nothing.

## Main definitions

* `LengthPrefix.frames` : the bodies of the complete frames.
* `LengthPrefix.Incomplete` : a stream without a complete frame.

## Main results

* `LengthPrefix.frames_append` : a frame in front of a stream.
* `LengthPrefix.frames_flatMap_append` : the frames of a concatenation of frames.
* `LengthPrefix.frames_of_prefix` : the frames of what has arrived of such a concatenation.
-/

namespace LengthPrefix

variable {α : Type*} {size : α → ℕ}

/-- The bodies of the complete frames of a stream. -/
def frames (size : α → ℕ) : List α → List (List α)
  | [] => []
  | a :: s => if size a ≤ s.length then s.take (size a) :: frames size (s.drop (size a)) else []
termination_by s => s.length
decreasing_by
  rw [List.length_drop, List.length_cons]
  omega

/-- The stream ends before its first frame does. -/
def Incomplete (size : α → ℕ) : List α → Prop
  | [] => True
  | a :: s => s.length < size a

instance : (s : List α) → Decidable (Incomplete size s)
  | [] => .isTrue trivial
  | a :: s => inferInstanceAs (Decidable (s.length < size a))

theorem frames_nil : frames size [] = [] := by rw [frames]

theorem frames_cons_of_le {a : α} {s : List α} (h : size a ≤ s.length) :
    frames size (a :: s) = s.take (size a) :: frames size (s.drop (size a)) := by
  rw [frames, if_pos h]

theorem frames_of_incomplete {s : List α} (h : Incomplete size s) : frames size s = [] := by
  cases s with
  | nil => exact frames_nil
  | cons a s => rw [frames, if_neg (Nat.not_le.mpr h)]

/-- A frame in front of a stream is its first frame. -/
theorem frames_append {a : α} {body : List α} (h : body.length = size a) (s : List α) :
    frames size (a :: (body ++ s)) = body :: frames size s := by
  have hle : size a ≤ (body ++ s).length := by
    rw [List.length_append]
    omega
  rw [frames_cons_of_le hle, ← h, List.take_left, List.drop_left]

/-- **Cutting.** A concatenation of frames is cut into these frames, and the incomplete frame
behind them is left out. -/
theorem frames_flatMap_append {fs : List (α × List α)} (h : ∀ f ∈ fs, f.2.length = size f.1)
    {s : List α} (hs : Incomplete size s) :
    frames size ((fs.flatMap fun f => f.1 :: f.2) ++ s) = fs.map Prod.snd := by
  induction fs with
  | nil => exact frames_of_incomplete hs
  | cons f fs ih =>
    have htail := ih fun f' hf' => h f' (List.mem_cons_of_mem f hf')
    rw [List.flatMap_cons, List.append_assoc, List.cons_append,
      frames_append (h f List.mem_cons_self), htail, List.map_cons]

/-- **Reading while the stream arrives.** What has arrived of a concatenation of frames is cut into
the first of these frames. -/
theorem frames_of_prefix {fs : List (α × List α)} (h : ∀ f ∈ fs, f.2.length = size f.1)
    {s : List α} (hs : s <+: fs.flatMap fun f => f.1 :: f.2) :
    frames size s <+: fs.map Prod.snd := by
  induction fs generalizing s with
  | nil =>
    rw [List.flatMap_nil, List.prefix_nil] at hs
    rw [hs, frames_nil]
    exact List.nil_prefix
  | cons f fs ih =>
    cases s with
    | nil =>
      rw [frames_nil]
      exact List.nil_prefix
    | cons a s =>
      rw [List.flatMap_cons, List.cons_append, List.cons_prefix_cons] at hs
      obtain ⟨rfl, hs⟩ := hs
      have hbody := h f List.mem_cons_self
      rcases Nat.lt_or_ge s.length (size f.1) with hlt | hle
      · have hwait : Incomplete size (f.1 :: s) := hlt
        rw [frames_of_incomplete hwait]
        exact List.nil_prefix
      · -- The whole body has arrived.
        obtain ⟨t, rfl⟩ := List.prefix_of_prefix_length_le (List.prefix_append f.2 _) hs
          (by omega)
        have htail := ih (fun f' hf' => h f' (List.mem_cons_of_mem f hf'))
          ((List.prefix_append_right_inj f.2).mp hs)
        rw [frames_append hbody, List.map_cons]
        exact (List.prefix_cons_inj f.2).mpr htail

end LengthPrefix
