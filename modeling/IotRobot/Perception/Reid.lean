import IotRobot.Lib.Deque
import Mathlib.Data.List.MinMax
import Mathlib.Data.Matrix.Mul

/-!
# Recognising the same person again

The gallery of `reid.py`: the embeddings of the person to follow.
-/

namespace IotRobot.Perception

open Lib Matrix

set_option autoImplicit false

/-- The appearance vector of a person. -/
abbrev Embedding (K : Type) (n : Nat) := Fin n → K

structure Gallery (K : Type) (n recent_size : Nat) where
  enrolled : List (Embedding K n) := []
  recent : Deque (Embedding K n) recent_size := .empty

namespace Gallery
variable {K : Type} {n recent_size : Nat}

def enroll (gallery : Gallery K n recent_size) (embeddings : List (Embedding K n)) :
    Gallery K n recent_size :=
  { gallery with enrolled := embeddings, recent := .empty }

def clear (gallery : Gallery K n recent_size) : Gallery K n recent_size := gallery.enroll []

def add (gallery : Gallery K n recent_size) (embedding : Embedding K n) :
    Gallery K n recent_size :=
  { gallery with recent := gallery.recent.append embedding }

def stored (gallery : Gallery K n recent_size) : List (Embedding K n) :=
  gallery.enrolled ++ gallery.recent.items

variable [Field K] [LinearOrder K]

/-- Cosine similarity to the closest stored embedding, all vectors having unit length. The
detector asks only a gallery in which somebody is enrolled. -/
def similarity (gallery : Gallery K n recent_size) (embedding : Embedding K n) : WithBot K :=
  (gallery.stored.map fun other => other ⬝ᵥ embedding).maximum

/-- A similarity is reached exactly where a stored embedding has it. -/
theorem le_similarity_iff {gallery : Gallery K n recent_size} {embedding : Embedding K n}
    {threshold : K} : threshold ≤ gallery.similarity embedding ↔
      ∃ other ∈ gallery.stored, threshold ≤ other ⬝ᵥ embedding := by
  unfold similarity
  constructor
  · intro h
    cases hbest : (gallery.stored.map fun other => other ⬝ᵥ embedding).maximum with
    | bot =>
      rw [hbest] at h
      cases not_lt_of_ge h (WithBot.bot_lt_coe threshold)
    | coe best =>
      rw [hbest] at h
      obtain ⟨other, hother, rfl⟩ := List.mem_map.mp (List.maximum_mem hbest)
      exact ⟨other, hother, WithBot.coe_le_coe.mp h⟩
  · rintro ⟨other, hother, hle⟩
    have hmem := List.mem_map_of_mem (f := fun other => other ⬝ᵥ embedding) hother
    exact (WithBot.coe_le_coe.mpr hle).trans (List.le_maximum_of_mem' hmem)

end Gallery

end IotRobot.Perception
