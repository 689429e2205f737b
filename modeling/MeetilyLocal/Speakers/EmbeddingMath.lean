import Mathlib.Tactic.Common

/-!
# Embedding vectors

The embedding of `speaker_diarization/embedding_math.rs`, and how a vector is packed into a column of
the database (`database/repositories/voice_profile.rs`).
-/

namespace MeetilyLocal

namespace EmbeddingMath

/-- L2-normalize a vector; a (near-)zero one is left as it is. -/
def l2Normalize (v : List Float32) : List Float32 :=
  let norm := ((v.map fun x => x * x).foldl (· + ·) 0).sqrt
  if 1e-8 < norm then
    let inv := 1 / norm
    v.map (· * inv)
  else v

/-- The dot product, which is the cosine similarity of normalized vectors. -/
def dot (a b : List Float32) : Float32 := (List.zipWith (· * ·) a b).foldl (· + ·) 0

/-- The cosine distance of normalized vectors. -/
def cosineDistance (a b : List Float32) : Float32 := 1 - dot a b

/-- Add a vector to an accumulator; none if it is the longer one, where the index runs out of
bounds. -/
def addInto (acc : List Float32) (e : List Float32) : Option (List Float32) :=
  if acc.length < e.length then none
  else some (List.zipWith (· + ·) acc e ++ acc.drop e.length)

/-- Average a set of embeddings and normalize the result. -/
def averageAndNormalize : List (List Float32) → Option (List Float32)
  | [] => some []
  | embedding :: embeddings =>
    let acc := (embedding :: embeddings).foldlM addInto (List.replicate embedding.length 0)
    let n := Float32.ofNat (embeddings.length + 1)
    acc.map fun acc => l2Normalize (acc.map (· / n))

/-- The average of one embedding runs nowhere out of bounds. -/
theorem isSome_averageAndNormalize_singleton (embedding : List Float32) :
    (averageAndNormalize [embedding]).isSome = true := by
  simp [averageAndNormalize, addInto]

theorem exists_foldlM_addInto {dim : ℕ} {embeddings : List (List Float32)}
    (h : ∀ e ∈ embeddings, e.length = dim) {acc : List Float32} (hacc : acc.length = dim) :
    ∃ sum, embeddings.foldlM addInto acc = some sum := by
  induction embeddings generalizing acc with
  | nil => exact ⟨acc, rfl⟩
  | cons e embeddings ih =>
    obtain ⟨he, hrest⟩ := List.forall_mem_cons.mp h
    have hnot : ¬acc.length < e.length := by omega
    rw [List.foldlM_cons, addInto, if_neg hnot]
    exact ih hrest (by simp [hacc, he])

/-- The average of embeddings of one size runs nowhere out of bounds. -/
theorem exists_averageAndNormalize {dim : ℕ} {embeddings : List (List Float32)}
    (h : ∀ e ∈ embeddings, e.length = dim) :
    ∃ average, averageAndNormalize embeddings = some average := by
  cases embeddings with
  | nil => exact ⟨[], rfl⟩
  | cons e embeddings =>
    have hzero : (List.replicate e.length (0 : Float32)).length = dim := by
      rw [List.length_replicate]
      exact h e (by simp)
    obtain ⟨sum, hsum⟩ := exists_foldlM_addInto h hzero
    exact ⟨_, by rw [averageAndNormalize, hsum]; rfl⟩

/-- Combine two centroids with their sample counts; none if the second vector is the shorter one,
where the index runs out of bounds. -/
def mergeCentroids (a : List Float32) (aN : ℕ) (b : List Float32) (bN : ℕ) :
    Option (List Float32) :=
  let total := Float32.ofNat (aN + bN)
  if b.length < a.length then none
  else
    some (l2Normalize ((List.range a.length).map fun i =>
      (a.getD i 0 * Float32.ofNat aN + b.getD i 0 * Float32.ofNat bN) / total))

/-- The normalized mean of two vectors, weighted by counts. -/
def weightedMean (a : List Float32) (aN : ℕ) (b : List Float32) (bN : ℕ) : List Float32 :=
  l2Normalize (List.zipWith
    (fun x y => (x * Float32.ofNat aN + y * Float32.ofNat bN) / Float32.ofNat (aN + bN)) a b)

/-- Where it returns, `merge_centroids` returns the weighted mean. -/
theorem of_mergeCentroids {a b v : List Float32} {aN bN : ℕ}
    (h : mergeCentroids a aN b bN = some v) : v = weightedMean a aN b bN := by
  rw [mergeCentroids] at h
  split at h
  · cases h
  next hlength =>
  rw [weightedMean, ← Option.some.inj h]
  congr 1
  refine List.ext_getElem (by simp; omega) fun i hi hi' => ?_
  have ha : i < a.length := by simpa using hi
  have hb : i < b.length := by omega
  simp [List.getD_eq_getElem?_getD, ha, hb]

/-- Pack a vector as little-endian bytes. -/
def floatsToBytes (v : List Float32) : List UInt8 :=
  v.flatMap fun x =>
    let bits : UInt32 := x.toBits
    [bits.toUInt8, (bits >>> 8).toUInt8, (bits >>> 16).toUInt8, (bits >>> 24).toUInt8]

/-- Unpack it; none if the number of bytes is not a multiple of 4. -/
def bytesToFloats : List UInt8 → Option (List Float32)
  | [] => some []
  | a :: b :: c :: d :: bytes =>
    let bits := a.toUInt32 ||| (b.toUInt32 <<< 8) ||| (c.toUInt32 <<< 16) ||| (d.toUInt32 <<< 24)
    (bytesToFloats bytes).map (Float32.ofBits bits :: ·)
  | _ => none

end EmbeddingMath

end MeetilyLocal
