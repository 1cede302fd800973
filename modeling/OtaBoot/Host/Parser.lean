import OtaBoot.Host.Update

/-!
# A reference parser

What a stream of bytes says, read as a whole: the frames in it are found by their
magic, cut out by their LENGTH, and judged by the decoder of the host. The
receiver of the firmware, which is given the same bytes one after the other,
reports the same.
-/

namespace OtaBoot.Host

open Storage LittleEndian
open OtaBoot (Receiver RxEvent sendFrame)

/-- The bytes after the first pair that is the magic. -/
def afterPair : List UInt8 → Option (List UInt8)
  | a :: b :: rest => if [a, b] = magic then some rest else afterPair (b :: rest)
  | _ => none

/-- What the parser makes of a frame. -/
inductive Report where
  /-- LENGTH is beyond all bounds. -/
  | rejected
  /-- The CRC does not match: a NACK with the frame's SEQ. -/
  | badCrc (seq : Nat)
  | dispatched (frame : Frame)
  deriving DecidableEq, Repr

/-- The verdict of the decoder on a frame with the given SEQ. -/
def judge (seq : Nat) : Except HostError Frame → List Report
  | .ok frame => [.dispatched frame]
  | .error .badCrc => [.badCrc seq]
  | .error _ => []

theorem length_afterPair {bytes rest : List UInt8} (h : afterPair bytes = some rest) :
    rest.length < bytes.length := by
  induction bytes using afterPair.induct with
  | case1 a b rest' hmagic =>
      rw [afterPair, if_pos hmagic] at h
      cases h
      simp only [List.length_cons]
      omega
  | case2 a b rest' hother ih =>
      rw [afterPair, if_neg hother] at h
      exact Nat.lt_succ_of_lt (ih h)
  | case3 bytes hshort =>
      rw [afterPair] at h
      · cases h
      · exact hshort

/-- The frames of a stream. An incomplete one at the end is not reported. -/
def parse (bytes : List UInt8) : List Report :=
  match h : afterPair bytes with
  | none => []
  | some rest =>
      have := length_afterPair h
      if rest.length < frameHeaderSize - 2 then []
      else
        let length := unpackField (rest.extract 1 3)
        let seq := unpackField (rest.extract 3 5)
        if length > maxPayloadSize then
          .rejected :: parse (rest.drop (frameHeaderSize - 2))
        else
          let total := frameHeaderSize - 2 + length + frameCrcSize
          if rest.length < total then []
          else judge seq (decode (magic ++ rest.take total)) ++ parse (rest.drop total)
termination_by bytes.length
decreasing_by all_goals rw [List.length_drop]; omega

/-! ## Finding the magic -/

section Magic

variable {noise rest : List UInt8}

theorem afterPair_cons (a b : UInt8) (rest : List UInt8) :
    afterPair (a :: b :: rest) = if [a, b] = magic then some rest else afterPair (b :: rest) := by
  rw [afterPair]

/-- Noise without a magic is skipped. -/
theorem afterPair_noise (h : ¬ magic <:+: noise) :
    afterPair (noise ++ (magic ++ rest)) = some rest := by
  induction noise with
  | nil => rfl
  | cons a noise ih =>
      have hrest : ¬ magic <:+: noise := fun hin => h (List.infix_cons hin)
      cases noise with
      | nil =>
          -- the noise may end in the first byte of a magic
          have hother : ¬ [a, (0xAA : UInt8)] = magic := by
            intro hmagic
            cases hmagic
          change afterPair (a :: 0xAA :: 0x55 :: rest) = _
          rw [afterPair_cons, if_neg hother]
          rfl
      | cons b noise =>
          have hother : ¬ [a, b] = magic := by
            intro hmagic
            exact h (hmagic ▸ ⟨[], noise, rfl⟩)
          change afterPair (a :: b :: (noise ++ (magic ++ rest))) = _
          rw [afterPair_cons, if_neg hother]
          exact ih hrest

/-- The window of two bytes that `receive` slides finds the same place. -/
theorem afterMagic_eq (bytes : List UInt8) : afterMagic [] bytes = afterPair bytes := by
  have hslide (window : List UInt8) (w : UInt8) (hwindow : window = [w] ∨ ∃ a, window = [a, w])
      (bytes : List UInt8) : afterMagic window bytes = afterPair (w :: bytes) := by
    induction bytes generalizing window w with
    | nil => rfl
    | cons b bytes ih =>
        have hnext : (window ++ [b]).drop ((window ++ [b]).length - 2) = [w, b] := by
          rcases hwindow with rfl | ⟨a, rfl⟩ <;> rfl
        rw [afterMagic, afterPair_cons]
        simp only [hnext]
        split
        · rfl
        · exact ih [w, b] b (.inr ⟨w, rfl⟩)
  cases bytes with
  | nil => rfl
  | cons b bytes =>
      have hfirst : ([] ++ [b]).drop (([] ++ [b]).length - 2) = [b] := rfl
      have hshort : ¬ [b] = magic := by
        intro hmagic
        cases hmagic
      rw [afterMagic]
      simp only [hfirst, if_neg hshort]
      exact hslide [b] b (.inl rfl) bytes

end Magic

end OtaBoot.Host
