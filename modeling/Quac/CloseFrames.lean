import Quac.FrameCodec

/-!
The budget of a closing frame.  The encoders take every field off the budget before they cut
the reason, but count on two bytes for the error code.
-/

namespace Quac.CloseFrames

open Coding FrameCodec Frames Identifiers

def sizeBound : Close → Nat
  | .connection _ => 1 + 8 + 8 + 8
  | .application _ => 1 + 8 + 8

def encode : Close → Nat → Bytes
  | .connection x, maxLen => x.encode maxLen
  | .application x, maxLen => x.encode maxLen

def isTransportLayer : Close → Bool
  | .connection _ => true
  | .application _ => false

def errorCode : Close → Nat
  | .connection x => x.errorCode
  | .application x => x.errorCode

def frameType : Close → Option FrameType
  | .connection x => x.frameType
  | .application _ => none

def reason : Close → Bytes
  | .connection x => x.reason
  | .application x => x.reason

def typeSize : Close → Nat
  | .connection x => varIntSize (x.frameType.getD 0)
  | .application _ => 0

/-- What `max_len` is lowered by before the reason is cut. -/
def reserved (x : Close) : Nat :=
  3 + typeSize x + varIntSize (reason x).length

def actualLen (x : Close) (maxLen : Nat) : Nat :=
  (reason x).length.min (maxLen - reserved x)

variable {x : Close} {maxLen : Nat}

theorem length_encode (x : Close) (maxLen : Nat) :
    (encode x maxLen).length = 1 + varIntSize (errorCode x) + typeSize x +
      varIntSize (actualLen x maxLen) + actualLen x maxLen := by
  rcases x with x | x <;>
  · simp only [encode, errorCode, typeSize, actualLen, reserved, reason, ConnectionClose.encode,
      ApplicationClose.encode, List.length_append, length_putVar, Nat.sub_add_eq, add_zero]
    rw [List.length_take_of_le (Nat.min_le_left _ _)]
    rfl

theorem length_encode_le (x : Close) (maxLen : Nat) : (encode x maxLen).length ≤ 25 + maxLen := by
  have hcode := varIntSize_le (errorCode x)
  have htype : typeSize x ≤ 8 := by
    cases x with
    | connection => exact varIntSize_le _
    | application => exact Nat.zero_le 8
  have hlen := varIntSize_le (actualLen x maxLen)
  have hcut : actualLen x maxLen ≤ maxLen := (Nat.min_le_right _ _).trans (Nat.sub_le _ _)
  rw [length_encode]
  omega

/-- The frame as it is read back; the type of a PADDING frame stands for none. -/
def decoded (x : Close) (maxLen : Nat) : Close :=
  match x with
  | .connection y => .connection { y with
      frameType := if y.frameType.getD 0 = 0 then none else some (y.frameType.getD 0)
      reason := y.reason.take (actualLen x maxLen) }
  | .application y => .application { y with reason := y.reason.take (actualLen x maxLen) }

theorem parse_encode (hcode : errorCode x < 2 ^ 62) (htype : (frameType x).getD 0 < 2 ^ 62)
    (hreason : (reason x).length < 2 ^ 62) :
    parse (encode x maxLen) = .ok (some [.ok (.close (decoded x maxLen))]) := by
  have hreads : decodeNext (encode x maxLen ++ []) = .ok (.close (decoded x maxLen), []) := by
    rcases x with x | x
    · simp only [decoded, actualLen, reserved, typeSize, Nat.sub_add_eq]
      exact reads_connectionClose_cut maxLen hcode htype hreason []
    · simp only [decoded, actualLen, reserved, typeSize, Nat.sub_add_eq]
      exact reads_applicationClose_cut maxLen hcode hreason []
  rw [List.append_nil] at hreads
  refine (decodes_nil.cons hreads).parse ?_
  intro hnil
  have hlength := length_encode x maxLen
  rw [hnil, List.length_nil] at hlength
  omega

/-- The frame is encoded without an overflow, keeps to its budget and is read back, but for the
end of its reason. -/
structure Fits (x : Close) (maxLen : Nat) : Prop where
  reasonLength : (reason x).length < 2 ^ 62
  reserved_le : reserved x ≤ maxLen
  length_le : (encode x maxLen).length ≤ maxLen
  parses : ∃ y, parse (encode x maxLen) = .ok (some [.ok (.close y)]) ∧
    isTransportLayer y = isTransportLayer x ∧ errorCode y = errorCode x ∧
    frameType y = frameType x ∧ reason y <+: reason x

theorem varIntSize_mono {m n : Nat} (h : m ≤ n) : varIntSize m ≤ varIntSize n := by
  unfold varIntSize
  split_ifs <;> omega

theorem reserved_le_of_sizeBound (h : sizeBound x ≤ maxLen) : reserved x ≤ maxLen := by
  have hreason := varIntSize_le (reason x).length
  rcases x with x | x
  · have htype := varIntSize_le (x.frameType.getD 0)
    simp only [sizeBound, reserved, typeSize] at *
    omega
  · simp only [sizeBound, reserved, typeSize] at *
    omega

theorem length_encode_le_iff (h : reserved x ≤ maxLen) : (encode x maxLen).length ≤ maxLen ↔
      1 + varIntSize (errorCode x) + typeSize x + varIntSize (reason x).length +
          (reason x).length ≤ maxLen ∨
        varIntSize (errorCode x) + varIntSize (maxLen - reserved x) ≤
          2 + varIntSize (reason x).length := by
  rw [length_encode, actualLen]
  rcases Nat.le_total (reason x).length (maxLen - reserved x) with hle | hle
  · have hmono := varIntSize_mono hle
    rw [show (reason x).length.min (maxLen - reserved x) = _ from Nat.min_eq_left hle]
    simp only [reserved] at *
    omega
  · have hmono := varIntSize_mono hle
    rw [show (reason x).length.min (maxLen - reserved x) = _ from Nat.min_eq_right hle]
    simp only [reserved] at *
    omega

/-- A closing frame keeps to its budget exactly when there is room for all of it, or cutting the
reason makes the length field shorter by as much as the error code exceeds two bytes. -/
theorem close_fits_iff (x : Close) (maxLen : Nat) (hcode : errorCode x < 2 ^ 62)
    (htype : (frameType x).getD 0 < 2 ^ 62) (hbound : sizeBound x ≤ maxLen) :
    Fits x maxLen ↔ (reason x).length < 2 ^ 62 ∧ frameType x ≠ some 0 ∧
      (1 + varIntSize (errorCode x) + typeSize x + varIntSize (reason x).length +
          (reason x).length ≤ maxLen ∨
        varIntSize (errorCode x) + varIntSize (maxLen - reserved x) ≤
          2 + varIntSize (reason x).length) := by
  have hreserved := reserved_le_of_sizeBound hbound
  rw [← length_encode_le_iff hreserved]
  constructor
  · rintro ⟨hreason, -, hlength, y, hparse, -, -, htypes, -⟩
    refine ⟨hreason, ?_, hlength⟩
    rintro hzero
    rw [parse_encode hcode htype hreason] at hparse
    obtain rfl : decoded x maxLen = y := by simpa using hparse
    rcases x with x | x
    · change x.frameType = some 0 at hzero
      simp only [frameType, decoded, hzero, Option.getD_some, if_true] at htypes
      cases htypes
    · cases hzero
  · rintro ⟨hreason, hcause, hlength⟩
    refine ⟨hreason, hreserved, hlength, _, parse_encode hcode htype hreason, ?_⟩
    rcases x with x | x
    · exact ⟨rfl, rfl, causeOfClose hcause, List.take_prefix _ _⟩
    · exact ⟨rfl, rfl, rfl, List.take_prefix _ _⟩

/-- A transport error with a reason that has to be cut. -/
theorem connectionClose_fits : Fits (.connection ⟨0xa, some 0x18, List.replicate 40 0⟩) 30 :=
  (close_fits_iff _ _ (by decide) (by decide) (by decide)).mpr
    ⟨by decide, by decide, .inr (by decide)⟩

/-- An application closes with an error code of eight bytes and a reason that has to be cut: the
frame takes 46 bytes where there are 40. -/
theorem applicationClose_exceeds : ¬ Fits (.application ⟨2 ^ 30, List.replicate 60 0⟩) 40 ∧
      (encode (.application ⟨2 ^ 30, List.replicate 60 0⟩) 40).length = 46 := by
  have hlength : (encode (.application ⟨2 ^ 30, List.replicate 60 0⟩) 40).length = 46 := by
    decide
  refine ⟨fun h => ?_, hlength⟩
  have hle := h.length_le
  exact absurd hle (by decide)

end Quac.CloseFrames
