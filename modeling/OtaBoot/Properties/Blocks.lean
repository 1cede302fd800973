import OtaBoot.DataFrames

/-!
# Blocks and pages

`on_data` erases a page when a block begins it. A block that runs over the end
of its page therefore writes to a page that nothing has erased. And blocks are
whole double-words, so that an image whose size is not a multiple of eight can
be announced but never completed.
-/

namespace OtaBoot

open Storage

/-! ## Sizes -/

/-- A transfer that was accepted can be completed exactly when its size is a
multiple of eight. -/
theorem canFinish_iff (flash₀ : Flash) {events : List Event} {flash : Flash} {u : Session}
    (hreach : (⟨flash₀, .reset⟩ : Board).run events = ⟨flash, .update u⟩) {seq : UInt16}
    {data : List UInt8} (hlen : data.length ≤ 1024) {faults : List Fault} {p : Protocol}
    {w : World Flash FlashCall}
    (hstart : (u.proto.dispatch cmdStartUpdate seq data).run ⟨flash, faults, []⟩ = (.done p, w))
    (hack : p.tx = u.proto.tx ++ sendFrame rspAck seq []) :
    p.CanFinish w.state ↔ (StartRequest.ofBytes data).size.toNat % 8 = 0 := by
  have hbegun := begun_of_ack hreach hlen hstart hack
  constructor
  · intro h
    rw [← hbegun.fwSize]
    exact h.aligned hbegun.bounded
  · intro haligned
    have hloading : Loading p.targetSlot (zeros _) 0 (seq + 1)
        (⟨w.state, [], []⟩ : World Flash FlashCall).state p.toTransfer := hbegun.loading w.state
    exact hloading.finish (hbegun.sendable haligned) (World.admitted_fresh _ _)

/-- An image of one double-word can be completed. -/
theorem canFinish_iff_eight :
    ∃ p w, (protocolInit.dispatch cmdStartUpdate 0 (startPayload 8 0 1 .b)).run
        ⟨Board.blank.flash, [], []⟩ = (.done p, w) ∧
      (p.CanFinish w.state ↔
        (StartRequest.ofBytes (startPayload 8 0 1 .b)).size.toNat % 8 = 0) := by
  obtain ⟨p, w, hrun, hack⟩ := waiting_start 0 8 0 1 (by decide) (by decide)
  exact ⟨p, w, hrun, canFinish_iff Board.blank.flash Board.run_waiting (by decide) hrun hack⟩

/-- A board that waits for its first update accepts an image of 300 bytes, which
no sequence of blocks completes. -/
theorem not_canFinish_300 :
    Board.blank.run [.boot false 0 [], .poll 0] =
        ⟨Board.blank.flash, .update (waitingSession.draining protocolInit 0 512 false)⟩ ∧
      ∃ p w, (protocolInit.dispatch cmdStartUpdate 0 (startPayload 300 0 1 .b)).run
          ⟨Board.blank.flash, [], []⟩ = (.done p, w) ∧
        p.tx = protocolInit.tx ++ sendFrame rspAck 0 [] ∧ ¬ p.CanFinish w.state := by
  obtain ⟨p, w, hrun, hack⟩ := waiting_start 0 300 0 1 (by decide) (by decide)
  have hbegun := Begun.of_waiting hrun hack
  refine ⟨Board.run_waiting, p, w, hrun, hack, ?_⟩
  intro h
  have haligned := h.aligned hbegun.bounded
  rw [hbegun.fwSize] at haligned
  exact absurd haligned (by decide)

/-! ## Pages -/

/-- Every block is written to pages erased since the START_UPDATE, and on working
flash none is refused, exactly when no block runs over the end of its page. -/
theorem blocks_erased_iff (flash₀ : Flash) {events : List Event} {flash : Flash} {u : Session}
    (hreach : (⟨flash₀, .reset⟩ : Board).run events = ⟨flash, .update u⟩) {seq : UInt16}
    {data : List UInt8} (hlen : data.length ≤ 1024) {faults : List Fault} {p : Protocol}
    {w : World Flash FlashCall}
    (hstart : (u.proto.dispatch cmdStartUpdate seq data).run ⟨flash, faults, []⟩ = (.done p, w))
    (hack : p.tx = u.proto.tx ++ sendFrame rspAck seq []) {frames : List DataFrame}
    (hadmitted : ∀ f ∈ frames, f.Admitted) (faults' : List Fault) :
    (ErasedFirst ((p.feedData frames).run ⟨w.state, faults', []⟩).2.calls ∧
        (faults' = [] → ∀ v ∈ p.visits ⟨w.state, faults', []⟩ frames,
          v.proto.Takes v.frame → ¬ v.RefusedByFlash)) ↔
      ∀ v ∈ p.visits ⟨w.state, faults', []⟩ frames,
        v.proto.Takes v.frame → v.proto.WithinPage v.frame.block := by
  have hbegun := begun_of_ack hreach hlen hstart hack
  rw [erasedFirst_feedData hbegun.bounded hadmitted .nil hbegun.pagesErased]
  refine and_iff_left_of_imp ?_
  rintro hwithin rfl
  exact not_refusedByFlash hbegun.bounded hadmitted (World.admitted_fresh _ _)
    (hbegun.restBlank _) hwithin

/-- One double-word is written to a page that was erased. -/
theorem blocks_erased_iff_eight :
    ∃ p w, (protocolInit.dispatch cmdStartUpdate 0 (startPayload 8 0 1 .b)).run
        ⟨Board.blank.flash, [], []⟩ = (.done p, w) ∧
      ((ErasedFirst ((p.feedData [⟨1, zeros 8⟩]).run ⟨w.state, [], []⟩).2.calls ∧
          (([] : List Fault) = [] → ∀ v ∈ p.visits ⟨w.state, [], []⟩ [⟨1, zeros 8⟩],
            v.proto.Takes v.frame → ¬ v.RefusedByFlash)) ↔
        ∀ v ∈ p.visits ⟨w.state, [], []⟩ [⟨1, zeros 8⟩],
          v.proto.Takes v.frame → v.proto.WithinPage v.frame.block) := by
  obtain ⟨p, w, hrun, hack⟩ := waiting_start 0 8 0 1 (by decide) (by decide)
  refine ⟨p, w, hrun, blocks_erased_iff Board.blank.flash Board.run_waiting (by decide) hrun hack
    ?_ []⟩
  intro f hf
  obtain rfl := List.mem_singleton.mp hf
  exact ⟨by decide, by decide, by decide⟩

/-- A block of zeros comes next in zeros. -/
theorem next_zeros {size count : UInt32} {sent : Nat} (hpos : 0 < count.toNat)
    (haligned : count.toNat % 8 = 0) (hpage : sent % 2048 + count.toNat ≤ 2048)
    (hfits : sent + count.toNat ≤ size.toNat) : Underway.Next (zeros size) sent (zeros count) := by
  constructor <;> rw [length_zeros]
  · exact hpos
  · exact haligned
  · exact hpage
  · rw [zeros, List.drop_replicate, List.take_replicate, zeros]
    congr 1
    omega

/-- Three blocks of a thousand bytes. -/
def threeThousand : List DataFrame := [⟨1, zeros 1000⟩, ⟨2, zeros 1000⟩, ⟨3, zeros 1000⟩]

theorem admitted_thousand (seq : UInt16) : (⟨seq, zeros 1000⟩ : DataFrame).Admitted := by
  constructor <;> rw [length_zeros] <;> decide

/-- The third block of a thousand bytes runs into a page that was not erased. -/
theorem not_erasedFirst_threeThousand :
    Board.blank.run [.boot false 0 [], .poll 0] =
        ⟨Board.blank.flash, .update (waitingSession.draining protocolInit 0 512 false)⟩ ∧
      (∀ f ∈ threeThousand, f.Admitted) ∧
      ∃ p w, (protocolInit.dispatch cmdStartUpdate 0 (startPayload 4096 0 1 .b)).run
          ⟨Board.blank.flash, [], []⟩ = (.done p, w) ∧
        p.tx = protocolInit.tx ++ sendFrame rspAck 0 [] ∧
        ¬ ErasedFirst ((p.feedData threeThousand).run ⟨w.state, [], []⟩).2.calls := by
  have hadmitted : ∀ f ∈ threeThousand, f.Admitted := by
    intro f hf
    simp only [threeThousand, List.mem_cons, List.not_mem_nil, or_false] at hf
    rcases hf with rfl | rfl | rfl <;> exact admitted_thousand _
  obtain ⟨p, w, hrun, hack⟩ := waiting_start 0 4096 0 1 (by decide) (by decide)
  have hbegun := Begun.of_waiting hrun hack
  refine ⟨Board.run_waiting, hadmitted, p, w, hrun, hack, ?_⟩
  rw [erasedFirst_feedData hbegun.bounded hadmitted .nil hbegun.pagesErased]
  have hsendable := hbegun.sendable (by decide)
  have hloading : Loading p.targetSlot (zeros 4096) 0 1
      (⟨w.state, [], []⟩ : World Flash FlashCall).state p.toTransfer := hbegun.loading w.state
  have hlength : (zeros 1000).length = 1000 := length_zeros 1000
  -- two blocks are stored
  have hnext₁ : Underway.Next (zeros 4096) 0 (zeros 1000) :=
    next_zeros (by decide) (by decide) (by decide) (by decide)
  obtain ⟨p₁, w₁, hrun₁, hcalm₁, hloading₁, -⟩ := hloading.dispatch hsendable
    (World.admitted_fresh _ _) hnext₁ (by rw [hlength]; decide)
  rw [hlength] at hloading₁
  have hnext₂ : Underway.Next (zeros 4096) (0 + 1000) (zeros 1000) :=
    next_zeros (by decide) (by decide) (by decide) (by decide)
  obtain ⟨p₂, w₂, hrun₂, -, hloading₂, -⟩ := hloading₁.dispatch hsendable hcalm₁ hnext₂
    (by rw [hlength]; decide)
  rw [hlength] at hloading₂
  intro hall
  -- the third begins at 2000
  have htakes : p₂.Takes ⟨3, zeros 1000⟩ := by
    refine ⟨hloading₂.state, hloading₂.lastSeq.symm, hloading₂.expectedSeq.symm, ?_⟩
    have hwritten := hloading₂.written
    have hsize : p₂.fwSize.toNat = 4096 := by
      rw [hloading₂.fwSize, hsendable.toNat_size, length_zeros]
      rfl
    rw [hwritten, hsize, hlength]
    omega
  have hvisit : (⟨p₂, w₂, ⟨3, zeros 1000⟩⟩ : Visit) ∈
      p.visits ⟨w.state, [], []⟩ threeThousand := by
    have hrun₁ : (p.dispatch cmdData 1 (zeros 1000)).run ⟨w.state, [], []⟩ = _ := hrun₁
    have hrun₂ : (p₁.dispatch cmdData 2 (zeros 1000)).run w₁ = _ := hrun₂
    simp [threeThousand, Protocol.visits, hrun₁, hrun₂]
  have hpage := hall _ hvisit htakes
  rw [Transfer.WithinPage, hloading₂.written, hlength] at hpage
  exact absurd hpage (by decide)

end OtaBoot
