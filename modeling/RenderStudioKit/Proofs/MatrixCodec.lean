import RenderStudioKit.Lib.Codec
import RenderStudioKit.Model.Serialization

/-!
# Matrices

The loops over a matrix count its sixteen elements and use the count as the number of a row. The
offsets they reach leave the matrix behind the fourth step.
-/

namespace RenderStudioKit.Proofs

open Codec

section

variable [Usd]

/-- The offsets the encoder reads at, in order. -/
def readOffsets : List Nat := (List.range 16).map (4 * ·)

/-- What a read at an offset from the first element finds. -/
def elementAt (m : Fin 16 → Usd.Double) (offset : Nat) : Usd.Double :=
  if h : offset < 16 then m ⟨offset, h⟩ else Usd.outOfBounds offset

lemma matrix_toJson_eq (m : Fin 16 → Usd.Double) :
    GfMatrix4d.toJson m = .ofList (fun offset => .double (elementAt m offset)) readOffsets := by
  unfold Json.ofList readOffsets
  rw [List.map_map]
  rfl

/-- The encoder reads elements of the matrix only, and the decoder restores all of them. -/
structure MatrixSurvives (m : Fin 16 → Usd.Double) : Prop where
  inside : ∀ offset ∈ readOffsets, offset < 16
  restored : GfMatrix4d.ofJson (GfMatrix4d.toJson m) = .ok m

/-- The decoder throws, or returns and has written to elements of the result only. -/
def DecodesInside (items : List Json) : Prop :=
  (∃ fault, fault ≠ .undefinedBehavior ∧ GfMatrix4d.ofJson (.array items) = .error fault) ∨
    ∃ m, GfMatrix4d.ofJson (.array items) = .ok m

def IsNumber (item : Json) : Prop := ∃ x, item.toDouble = .ok x

lemma toDouble_cases (item : Json) :
    (∃ x, item.toDouble = .ok x) ∨ item.toDouble = .error .jsonError := by
  cases item with
  | int n => exact .inl ⟨_, rfl⟩
  | double x => exact .inl ⟨_, rfl⟩
  | _ => exact .inr rfl

lemma decodesInside_iff (items : List Json) :
    DecodesInside items ↔ GfMatrix4d.ofJson (.array items) ≠ .error .undefinedBehavior := by
  unfold DecodesInside
  cases GfMatrix4d.ofJson (.array items) with
  | error fault => simp
  | ok m => simp

/-- The body of the decoder's loop. -/
def writeElement (result : Fin 16 → Usd.Double) (item : Json × Nat) :
    Except Fault (Fin 16 → Usd.Double) := do
  let x ← item.1.toDouble
  if h : 4 * item.2 < 16 then .ok (Function.update result ⟨4 * item.2, h⟩ x)
  else .error .undefinedBehavior

lemma matrix_ofJson_array (items : List Json) :
    GfMatrix4d.ofJson (.array items) = items.zipIdx.foldlM writeElement fun _ => Usd.zero := rfl

/-- The loop from the element `k` on: it leaves the matrix unless it ends, or meets an element that
is no number, before the fifth element is written. -/
lemma writeElement_inside (items : List Json) {k : Nat} (hk : k ≤ 4)
    (result : Fin 16 → Usd.Double) :
    (items.zipIdx k).foldlM writeElement result ≠ .error .undefinedBehavior ↔
      k + items.length ≤ 4 ∨ ∃ item ∈ items.take (5 - k), ¬IsNumber item := by
  induction items generalizing k result with
  | nil =>
    have hdone : ([].zipIdx k).foldlM writeElement result = .ok result := rfl
    rw [hdone]
    exact iff_of_true nofun (.inl hk)
  | cons item items ih =>
    have htake : (item :: items).take (5 - k) = item :: items.take (4 - k) := by
      rw [show 5 - k = 4 - k + 1 by omega, List.take_succ_cons]
    rw [List.zipIdx_cons, List.foldlM_cons, htake]
    rcases toDouble_cases item with ⟨x, hx⟩ | hthrow
    · have hnumber : IsNumber item := ⟨x, hx⟩
      by_cases hlast : k = 4
      · have hwrite : writeElement result (item, k) = .error .undefinedBehavior := by
          subst hlast
          simp [writeElement, hx]
        subst hlast
        simp [hwrite, hnumber]
      · have hoffset : 4 * k < 16 := by omega
        have hwrite : writeElement result (item, k) =
            .ok (Function.update result ⟨4 * k, hoffset⟩ x) := by
          simp [writeElement, hx, hoffset]
        have hlength : k + (item :: items).length ≤ 4 ↔ k + 1 + items.length ≤ 4 := by
          rw [List.length_cons]
          omega
        have hrest := ih (k := k + 1) (by omega) (Function.update result ⟨4 * k, hoffset⟩ x)
        rw [show 5 - (k + 1) = 4 - k by omega] at hrest
        rw [hwrite, ok_bind, hrest, hlength]
        simp [hnumber]
    · have hwrite : writeElement result (item, k) = .error .jsonError := by
        simp [writeElement, hthrow]
      have hnot : ¬IsNumber item := by
        rintro ⟨x, hx⟩
        rw [hthrow] at hx
        cases hx
      simp [hwrite, hnot]

/-- No matrix is encoded from its own elements and restored. An array is decoded inside the matrix
exactly if it has at most four elements or one of the first five is no number. -/
theorem matrix_codec_exact :
    (∀ m : Fin 16 → Usd.Double,
      GfMatrix4d.toJson m = .ofList (fun offset => .double (elementAt m offset)) readOffsets ∧
        ¬MatrixSurvives m) ∧
    ∀ items : List Json, DecodesInside items ↔
      items.length ≤ 4 ∨ ∃ item ∈ items.take 5, ¬IsNumber item := by
  constructor
  · intro m
    refine ⟨matrix_toJson_eq m, fun h => ?_⟩
    have hbound := h.inside 60 (by decide)
    omega
  · intro items
    rw [decodesInside_iff, matrix_ofJson_array, writeElement_inside items (Nat.zero_le 4)]
    simp

end

section

attribute [local instance] Usd.sample

/-- The identity matrix. -/
def identity : Fin 16 → Usd.Double := fun i => if i.val % 5 = 0 then (1 : Int) else (0 : Int)

/-- The encoder reads the identity at the offsets of sixteen rows, and the decoder writes outside
the result for every array of sixteen numbers. -/
theorem identity_not_restored :
    ¬MatrixSurvives identity ∧ 16 ∈ readOffsets ∧
      GfMatrix4d.ofJson (GfMatrix4d.toJson identity) = .error .undefinedBehavior ∧
      ¬DecodesInside (List.replicate 16 (.int 0)) := by
  refine ⟨fun h => ?_, by decide, rfl, ?_⟩
  · have hbound := h.inside 16 (by decide)
    omega
  · rintro (⟨fault, hne, h⟩ | ⟨m, h⟩)
    · exact hne (Except.error.inj h).symm
    · cases h

end

end RenderStudioKit.Proofs
