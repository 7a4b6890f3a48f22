import Mathlib.Data.List.Basic

/-!
# Bytes of words and texts of blocks

A word is read as bytes from the low end (`byte`). A byte under a mask tells the bits of the word
that the mask keeps (`byte_and_eq_iff`), so all bytes of a word under their masks tell every bit
that some mask keeps (`bytes_and_eq_iff`).

A list is written as a text of one block for each element, where the block may depend on the
position (`blocks`). When a block tells its element and where it ends, the text tells the
list (`blocks_inj`).
-/

namespace Choreography

/-! ## Bytes -/

variable {n : ℕ}

/-- The byte at position `i`, counted from the low end. -/
def byte (w : BitVec n) (i : ℕ) : BitVec 8 := (w >>> (8 * i)).setWidth 8

theorem getLsbD_byte (w : BitVec n) (i : ℕ) {j : ℕ} (hj : j < 8) :
    (byte w i).getLsbD j = w.getLsbD (8 * i + j) := by
  simp [byte, hj]

/-- Two values agree under a mask when they agree on the bits that it keeps. -/
theorem and_eq_and_iff {x y mask : BitVec n} :
    x &&& mask = y &&& mask ↔ ∀ j < n, mask.getLsbD j → x.getLsbD j = y.getLsbD j := by
  constructor
  · intro h j _ hmask
    have hbit := congrArg (fun z => z.getLsbD j) h
    simpa [BitVec.getLsbD_and, hmask] using hbit
  · intro h
    refine BitVec.eq_of_getLsbD_eq fun j hj => ?_
    rw [BitVec.getLsbD_and, BitVec.getLsbD_and]
    cases hmask : mask.getLsbD j with
    | false => simp
    | true => rw [h j hj hmask]

/-- The bits that are set over a mask do not matter. -/
theorem and_or_eq_and_or_iff {x y mask bits : BitVec n} (h : bits &&& mask = 0#n) :
    x &&& mask ||| bits = y &&& mask ||| bits ↔ x &&& mask = y &&& mask := by
  have hkeep : ∀ z : BitVec n, (z &&& mask ||| bits) &&& mask = z &&& mask := by
    intro z
    rw [BitVec.and_comm, BitVec.and_or_distrib_left, BitVec.and_comm mask bits, h,
      BitVec.and_comm mask, BitVec.and_assoc, BitVec.and_self, BitVec.or_zero]
  refine ⟨fun hxy => ?_, fun hxy => by rw [hxy]⟩
  rw [← hkeep x, hxy, hkeep y]

theorem byte_and_eq_iff {w w' : BitVec n} {i : ℕ} {mask : BitVec 8} :
    byte w i &&& mask = byte w' i &&& mask ↔
      ∀ j < 8, mask.getLsbD j → w.getLsbD (8 * i + j) = w'.getLsbD (8 * i + j) := by
  rw [and_eq_and_iff]
  refine forall₂_congr fun j hj => ?_
  rw [getLsbD_byte w i hj, getLsbD_byte w' i hj]

/-- The bytes of two words agree under the masks when the words agree on the bits that the
masks keep. -/
theorem bytes_and_eq_iff {w w' : BitVec n} {k : ℕ} {mask : ℕ → BitVec 8} :
    (∀ i < k, byte w i &&& mask i = byte w' i &&& mask i) ↔
      ∀ p < 8 * k, (mask (p / 8)).getLsbD (p % 8) → w.getLsbD p = w'.getLsbD p := by
  simp only [byte_and_eq_iff]
  constructor
  · intro h p hp hmask
    have hbit := h (p / 8) (by omega) (p % 8) (by omega) hmask
    rwa [Nat.div_add_mod] at hbit
  · intro h i hi j hj hmask
    have hdiv : (8 * i + j) / 8 = i := by omega
    have hmod : (8 * i + j) % 8 = j := by omega
    exact h (8 * i + j) (by omega) (by rwa [hdiv, hmod])

/-! ## Blocks -/

variable {α β : Type*} (f : ℕ → α → List β)

/-- The blocks of the elements of a list, the first of which has position `i`. -/
def blocks : ℕ → List α → List β
  | _, [] => []
  | i, a :: l => f i a ++ blocks (i + 1) l

/-- A loop that appends the blocks. -/
theorem foldl_zipIdx_append (out : List β) (i : ℕ) (l : List α) :
    (l.zipIdx i).foldl (fun out p => out ++ f p.2 p.1) out = out ++ blocks f i l := by
  induction l generalizing i out with
  | nil => simp [blocks]
  | cons a l ih => rw [List.zipIdx_cons, List.foldl_cons, ih, blocks, List.append_assoc]

variable {f}

theorem blocks_inj (hne : ∀ i a, f i a ≠ [])
    (hf : ∀ i a a' r r', f i a ++ r = f i a' ++ r' → a = a' ∧ r = r') {i : ℕ} {l l' : List α} :
    blocks f i l = blocks f i l' ↔ l = l' := by
  refine ⟨fun h => ?_, fun h => by rw [h]⟩
  induction l generalizing i l' with
  | nil =>
    cases l' with
    | nil => rfl
    | cons a' l' => simp [blocks, hne] at h
  | cons a l ih =>
    cases l' with
    | nil => simp [blocks, hne] at h
    | cons a' l' =>
      obtain ⟨rfl, hrest⟩ := hf i a a' _ _ h
      rw [ih hrest]

end Choreography
