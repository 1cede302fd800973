import OtaBoot.Replies
import OtaBoot.Histories

/-!
# CMD_DATA frames

What a sequence of CMD_DATA frames does after a START_UPDATE: the calls of the
flash driver, which pages they erase and write, what is refused, and how far the
transfer comes.
-/

namespace OtaBoot

open Storage

/-! ## Sequences of blocks -/

/-- A CMD_DATA frame. -/
structure DataFrame where
  seq : UInt16
  block : List UInt8
  deriving DecidableEq, Repr

/-- A block that can be programmed and fits into a frame. -/
structure DataFrame.Admitted (f : DataFrame) : Prop where
  nonempty : 0 < f.block.length
  aligned : f.block.length % 8 = 0
  short : f.block.length ≤ 1024

theorem DataFrame.Admitted.length_lt {f : DataFrame} (hf : f.Admitted) :
    f.block.length < 65536 := by
  have hshort := hf.short
  omega

/-- CMD_DATA frames, one after the other. -/
def Protocol.feedData (p : Protocol) : List DataFrame → FlashM Protocol
  | [] => pure p
  | f :: frames => do
      let p ← p.dispatch cmdData f.seq f.block
      p.feedData frames

/-- A frame with the context and the flash that it finds. -/
structure Visit where
  proto : Protocol
  world : World Flash FlashCall
  frame : DataFrame

/-- What each frame finds, as long as there is power. -/
def Protocol.visits (p : Protocol) (w : World Flash FlashCall) : List DataFrame → List Visit
  | [] => []
  | f :: frames =>
      ⟨p, w, f⟩ ::
        match (p.dispatch cmdData f.seq f.block).run w with
        | (.done p', w') => p'.visits w' frames
        | (.cut, _) => []

/-- The frame is the expected one, and its block has room. -/
structure Protocol.Takes (p : Protocol) (f : DataFrame) : Prop where
  state : p.state = .receiving
  new : f.seq ≠ p.lastSeq
  inSequence : f.seq = p.expectedSeq
  inBounds : p.bytesWritten.toNat + f.block.length ≤ p.fwSize.toNat

section OneFrame

variable {p p' : Protocol} {f : DataFrame} {w w' : World Flash FlashCall} {flash : Flash}

theorem Protocol.Takes.continues (h : p.Takes f) (hf : f.Admitted) : p.Continues f.block :=
  ⟨hf.nonempty, hf.aligned, h.inBounds⟩

theorem Protocol.Takes.action (h : p.Takes f) (hb : p.Bounded) (hf : f.Admitted) (flash : Flash) :
    p.toTransfer.action flash cmdData f.seq f.block = .store f.seq f.block :=
  action_data flash f.seq hb h.state h.inSequence h.new (h.continues hf)

/-- What `on_data` does with a block whose page is ready. -/
def Protocol.writeBlock (p : Protocol) (f : DataFrame) : FlashM Protocol := do
  let st ← flashWrite p.blockAddr f.block
  if st ≠ .ok then pure (p.sendNack f.seq errFlash).abortTransfer
  else
    pure ({ p with
      toTransfer := p.toTransfer.advanced f.seq (UInt32.ofNat f.block.length) }.sendAck f.seq)

/-- What `on_data` does with a block that it takes. -/
def Protocol.storeBlock (p : Protocol) (f : DataFrame) : FlashM Protocol :=
  if p.bytesWritten % flashPageSize = 0 then do
    let st ← flashErasePage p.blockAddr
    if st ≠ .ok then pure (p.sendNack f.seq errFlash).abortTransfer
    else p.writeBlock f
  else p.writeBlock f

theorem dispatch_takes (h : p.Takes f) (hb : p.Bounded) (hf : f.Admitted) :
    p.dispatch cmdData f.seq f.block =
      ({ p with cntFramesOk := p.cntFramesOk + 1 } : Protocol).storeBlock f := by
  obtain ⟨haligned, hfits⟩ := (h.continues hf).checks hb
  change (if p.state ≠ .receiving then _ else if f.seq = p.lastSeq then _
    else if f.seq ≠ p.expectedSeq then _
    else if UInt32.ofNat f.block.length = 0 ∨ UInt32.ofNat f.block.length % 8 ≠ 0 then _
    else if p.bytesWritten + UInt32.ofNat f.block.length > p.fwSize then _ else _) = _
  rw [if_neg (not_not.mpr h.state), if_neg h.new, if_neg (not_not.mpr h.inSequence),
    if_neg haligned, if_neg hfits]
  rfl

/-- A block that is not taken costs a reply, and perhaps the transfer. -/
theorem dispatch_refused (h : ¬ p.Takes f) (hb : p.Bounded) (hf : f.Admitted) :
    ∃ p', p.dispatch cmdData f.seq f.block = pure p' ∧
      (p'.toTransfer = p.toTransfer ∨ p'.toTransfer = p.toTransfer.abort) := by
  have hshort := hf.short
  change ∃ p', (if p.state ≠ .receiving then _ else if f.seq = p.lastSeq then _
    else if f.seq ≠ p.expectedSeq then _
    else if UInt32.ofNat f.block.length = 0 ∨ UInt32.ofNat f.block.length % 8 ≠ 0 then _
    else if p.bytesWritten + UInt32.ofNat f.block.length > p.fwSize then _ else _) = _ ∧ _
  split
  · exact ⟨_, rfl, .inl rfl⟩
  next hstate =>
  split
  · exact ⟨_, rfl, .inl rfl⟩
  next hnew =>
  split
  · exact ⟨_, rfl, .inr rfl⟩
  next hseq =>
  split
  · exact ⟨_, rfl, .inl rfl⟩
  next haligned =>
  split
  · exact ⟨_, rfl, .inr rfl⟩
  next hfits =>
  -- all tests passed: the block is taken
  have hcontinues := Transfer.continues_of_checks hb (by omega) haligned hfits
  exact absurd ⟨Decidable.not_not.mp hstate, hnew, Decidable.not_not.mp hseq, hcontinues.fits⟩ h

/-! ### Calls of one frame -/

theorem calls_writeBlock (p : Protocol) (f : DataFrame) (w : World Flash FlashCall) :
    ((p.writeBlock f).run w).2.calls = w.calls ++ [(w.state, .write p.blockAddr f.block)] := by
  refine (Faulty.calls_bind (fun _ => ?_) w).trans (calls_flashWrite _ _ w)
  exact .ite (.pure _) (.pure _)

/-- Within a page a block is only written. -/
theorem calls_inside (hpage : ¬ p.bytesWritten % flashPageSize = 0) (f : DataFrame)
    (w : World Flash FlashCall) :
    ((p.storeBlock f).run w).2.calls = w.calls ++ [(w.state, .write p.blockAddr f.block)] := by
  rw [Protocol.storeBlock, if_neg hpage]
  exact calls_writeBlock p f w

/-- At the start of a page the page is erased, and then the block is written. -/
theorem calls_boundary (hpage : p.bytesWritten % flashPageSize = 0) (f : DataFrame)
    (w : World Flash FlashCall) :
    (((p.storeBlock f).run w).2.calls = w.calls ++ [(w.state, .erasePage p.blockAddr)] ∧
      ∀ p', ((p.storeBlock f).run w).1 = .done p' → p'.state ≠ .receiving) ∨
    ∃ flash, ((p.storeBlock f).run w).2.calls =
      w.calls ++ [(w.state, .erasePage p.blockAddr), (flash, .write p.blockAddr f.block)] := by
  have herase := calls_flashErasePage p.blockAddr w
  rw [Protocol.storeBlock, if_pos hpage, Faulty.run_bind]
  cases hrun : (flashErasePage p.blockAddr).run w with
  | mk out w₁ =>
      rw [hrun] at herase
      cases out with
      | cut => exact .inl ⟨herase, fun p' h => by cases h⟩
      | done st =>
          by_cases hst : st = .ok
          · right
            refine ⟨w₁.state, ?_⟩
            dsimp only
            rw [if_neg (not_not.mpr hst), calls_writeBlock, herase, List.append_assoc]
            rfl
          · left
            dsimp only
            rw [if_pos hst]
            refine ⟨herase, fun p' h => ?_⟩
            cases h
            exact Transfer.abort_not_receiving _

end OneFrame

/-! ## Erased before written -/

/-- The page and the block have a byte in common. -/
def Overlaps (page addr : UInt32) (block : List UInt8) : Prop :=
  page.toNat % 2048 = 0 ∧ page.toNat < addr.toNat + block.length ∧
    addr.toNat < page.toNat + 2048

/-- The page is erased by one of the calls. -/
def ErasedBy (page : UInt32) (calls : List (Flash × FlashCall)) : Prop :=
  ∃ flash, (flash, FlashCall.erasePage page) ∈ calls

/-- Every page that a write touches was erased by an earlier call. -/
def ErasedFirst (calls : List (Flash × FlashCall)) : Prop :=
  ∀ front flash addr block back, calls = front ++ (flash, .write addr block) :: back →
    ∀ page, Overlaps page addr block → ErasedBy page front

section Calls

variable {calls more : List (Flash × FlashCall)} {flash : Flash} {page addr : UInt32}
  {block : List UInt8}

theorem ErasedFirst.nil : ErasedFirst [] := by
  intro front flash addr block back hsplit
  exact absurd hsplit (by simp)

theorem ErasedFirst.of_append (h : ErasedFirst (calls ++ more)) : ErasedFirst calls := by
  intro front flash addr block back hsplit page hpage
  refine h front flash addr block (back ++ more) ?_ page hpage
  rw [hsplit, List.append_assoc, List.cons_append]

theorem ErasedFirst.of_prefix (h : ErasedFirst more) (hfront : calls <+: more) :
    ErasedFirst calls := by
  obtain ⟨rest, rfl⟩ := hfront
  exact h.of_append

theorem ErasedFirst.erase (h : ErasedFirst calls) (flash : Flash) (page : UInt32) :
    ErasedFirst (calls ++ [(flash, .erasePage page)]) := by
  intro front flash' addr block back hsplit
  rcases List.eq_nil_or_concat back with rfl | ⟨back, last, rfl⟩
  · -- the last call is no write
    have hlast := List.append_inj_right' hsplit rfl
    simp at hlast
  · rw [List.concat_eq_append, ← List.cons_append, ← List.append_assoc] at hsplit
    exact h front flash' addr block back (List.append_inj_left' hsplit rfl)

theorem erasedFirst_write :
    ErasedFirst (calls ++ [(flash, .write addr block)]) ↔
      ErasedFirst calls ∧ ∀ page, Overlaps page addr block → ErasedBy page calls := by
  constructor
  · intro h
    exact ⟨h.of_append, h calls flash addr block [] rfl⟩
  · rintro ⟨h, hlast⟩ front flash' addr' block' back hsplit
    rcases List.eq_nil_or_concat back with rfl | ⟨back, last, rfl⟩
    · obtain ⟨rfl, hcall⟩ := List.append_inj' hsplit rfl
      simp only [List.cons.injEq, Prod.mk.injEq, FlashCall.write.injEq, and_true] at hcall
      obtain ⟨rfl, rfl, rfl⟩ := hcall
      exact hlast
    · rw [List.concat_eq_append, ← List.cons_append, ← List.append_assoc] at hsplit
      exact h front flash' addr' block' back (List.append_inj_left' hsplit rfl)

theorem ErasedBy.append (h : ErasedBy page calls) (more : List (Flash × FlashCall)) :
    ErasedBy page (calls ++ more) := by
  obtain ⟨flash, hmem⟩ := h
  exact ⟨flash, List.mem_append_left _ hmem⟩

@[simp] theorem erasedBy_erase {page' : UInt32} :
    ErasedBy page (calls ++ [(flash, .erasePage page')]) ↔ ErasedBy page calls ∨ page = page' := by
  simp [ErasedBy, exists_or]

@[simp] theorem erasedBy_write :
    ErasedBy page (calls ++ [(flash, .write addr block)]) ↔ ErasedBy page calls := by
  simp [ErasedBy]

end Calls

/-- The pages erased so far are those that hold a byte of what was stored. -/
def PagesErased (t : Transfer) (calls : List (Flash × FlashCall)) : Prop :=
  t.state = .receiving → ∀ page : UInt32, ErasedBy page calls ↔
    ∃ k, 2048 * k < t.bytesWritten.toNat ∧ page.toNat = t.targetSlot.addr.toNat + 2048 * k

section Pages

variable {p p' : Protocol} {f : DataFrame} {w : World Flash FlashCall}
  {calls : List (Flash × FlashCall)}

theorem PagesErased.of_not_receiving {t : Transfer} (h : t.state ≠ .receiving) :
    PagesErased t calls :=
  fun hstate => absurd hstate h

/-- With the page of the next block, the pages erased are those begun so far. -/
def PagesBegun (t : Transfer) (calls : List (Flash × FlashCall)) : Prop :=
  ∀ page : UInt32, ErasedBy page calls ↔
    ∃ k, 2048 * k ≤ t.bytesWritten.toNat ∧ page.toNat = t.targetSlot.addr.toNat + 2048 * k

theorem PagesErased.inside (h : PagesErased p.toTransfer calls) (hstate : p.state = .receiving)
    (hpage : ¬ p.bytesWritten % flashPageSize = 0) : PagesBegun p.toTransfer calls := by
  intro page
  rw [Transfer.pageBoundary_iff] at hpage
  rw [h hstate page]
  refine exists_congr fun k => and_congr_left fun _ => ?_
  omega

theorem PagesErased.boundary (h : PagesErased p.toTransfer calls) (hstate : p.state = .receiving)
    (hb : p.Bounded) (hpage : p.bytesWritten % flashPageSize = 0) (flash : Flash) :
    PagesBegun p.toTransfer (calls ++ [(flash, .erasePage p.blockAddr)]) := by
  intro page
  rw [Transfer.pageBoundary_iff] at hpage
  have haddr := Transfer.toNat_blockAddr hb
  rw [erasedBy_erase, h hstate page, ← UInt32.toNat_inj, haddr]
  constructor
  · rintro (⟨k, hk, hpage'⟩ | hpage')
    · exact ⟨k, by omega, hpage'⟩
    · exact ⟨p.bytesWritten.toNat / 2048, by omega, by omega⟩
  · rintro ⟨k, hk, hpage'⟩
    rcases Nat.lt_or_eq_of_le hk with hlt | heq
    · exact .inl ⟨k, hlt, hpage'⟩
    · exact .inr (by omega)

/-- A block is written to erased pages exactly when it stays within its page. -/
theorem PagesBegun.written_iff (h : PagesBegun p.toTransfer calls) (ht : p.Takes f)
    (hb : p.Bounded) :
    (∀ page, Overlaps page p.blockAddr f.block → ErasedBy page calls) ↔
      p.WithinPage f.block := by
  have haddr := Transfer.toNat_blockAddr hb
  have hslot := p.targetSlot.addr_bounds
  have hfits := ht.inBounds
  have hsize := hb.size
  unfold Transfer.WithinPage
  constructor
  · intro hall
    by_contra hover
    -- the page behind
    obtain ⟨next, hnext⟩ : ∃ next : UInt32, next.toNat =
        p.targetSlot.addr.toNat + 2048 * (p.bytesWritten.toNat / 2048 + 1) :=
      ⟨_, UInt32.toNat_ofNat_of_lt' (by simp only [UInt32.size]; omega)⟩
    have herased := hall next ⟨by omega, by omega, by omega⟩
    obtain ⟨k, hk, hpage⟩ := (h next).mp herased
    omega
  · rintro hwithin page ⟨haligned, hlo, hhi⟩
    exact (h page).mpr ⟨p.bytesWritten.toNat / 2048, by omega, by omega⟩

/-- The block ends in the page begun last. -/
theorem PagesBegun.advanced (h : PagesBegun p.toTransfer calls) (ht : p.Takes f) (hb : p.Bounded)
    (hf : f.Admitted) (hpage : p.WithinPage f.block) (flash : Flash) :
    PagesErased (p.toTransfer.advanced f.seq (UInt32.ofNat f.block.length))
      (calls ++ [(flash, .write p.blockAddr f.block)]) := by
  intro _ page
  have hpos := hf.nonempty
  have hsum := Transfer.toNat_advanced hb (ht.continues hf)
  unfold Transfer.WithinPage at hpage
  rw [erasedBy_write, h page]
  refine exists_congr fun k => and_congr_left fun _ => ?_
  change _ ↔ _ < (p.bytesWritten + _).toNat
  rw [hsum]
  omega

/-- What a frame leaves of the context. -/
theorem dispatch_data_effect (hb : p.Bounded) (hlen : f.block.length < 65536)
    (w : World Flash FlashCall) (p' : Protocol)
    (hrun : ((p.dispatch cmdData f.seq f.block).run w).1 = .done p') :
    ActionEffect False w.state p (p.toTransfer.action w.state cmdData f.seq f.block)
      ((p.dispatch cmdData f.seq f.block).run w).2.state (some p') := by
  have hacts : Acts .harsh w.state p _ _ := dispatch_acts hb cmdData f.seq f.block hlen
  obtain ⟨-, hout⟩ := hacts (Action.allowed_harsh _ _ _) w
    ⟨fun _ _ => trivial, fun _ _ => trivial⟩ rfl
  rw [hrun, eq_false Climate.harsh_not_reportsNoError] at hout
  exact hout

theorem dispatch_data_bounded (hb : p.Bounded) (hlen : f.block.length < 65536)
    (w : World Flash FlashCall) (p' : Protocol)
    (hrun : ((p.dispatch cmdData f.seq f.block).run w).1 = .done p') : p'.Bounded :=
  (dispatch_data_effect hb hlen w p' hrun).bounded hb (Transfer.action_justified hb hlen)

theorem dispatch_data_context (hb : p.Bounded) (hf : f.Admitted) (ht : p.Takes f)
    (w : World Flash FlashCall) (p' : Protocol)
    (hrun : ((p.dispatch cmdData f.seq f.block).run w).1 = .done p') :
    p'.toTransfer = p.toTransfer.advanced f.seq (UInt32.ofNat f.block.length) ∨
      p'.toTransfer = p.toTransfer.abort := by
  have heffect := dispatch_data_effect hb hf.length_lt w p' hrun
  rw [ht.action hb hf] at heffect
  generalize ((p.dispatch cmdData f.seq f.block).run w).2.state = after at heffect
  cases heffect with
  | performed htransfer => exact .inl htransfer
  | failed _ _ htransfer => exact .inr htransfer

/-- One block that is taken. -/
theorem calls_takes (ht : p.Takes f) (hb : p.Bounded) (hf : f.Admitted)
    (hfirst : ErasedFirst w.calls) (hpages : PagesErased p.toTransfer w.calls) :
    (ErasedFirst ((p.dispatch cmdData f.seq f.block).run w).2.calls ↔ p.WithinPage f.block) ∧
      ∀ p', ((p.dispatch cmdData f.seq f.block).run w).1 = .done p' → p.WithinPage f.block →
        PagesErased p'.toTransfer ((p.dispatch cmdData f.seq f.block).run w).2.calls := by
  have hshort := hf.short
  have hcontext (p' : Protocol)
      (hrun : ((p.dispatch cmdData f.seq f.block).run w).1 = .done p') :=
    dispatch_data_context hb hf ht w p' hrun
  -- whatever was called, the page was begun before the block was written
  have hwrite (calls : List (Flash × FlashCall)) (flash : Flash)
      (hcalls : ((p.dispatch cmdData f.seq f.block).run w).2.calls =
        calls ++ [(flash, .write p.blockAddr f.block)])
      (hfirst : ErasedFirst calls) (hbegun : PagesBegun p.toTransfer calls) :
      (ErasedFirst ((p.dispatch cmdData f.seq f.block).run w).2.calls ↔ p.WithinPage f.block) ∧
        ∀ p', ((p.dispatch cmdData f.seq f.block).run w).1 = .done p' → p.WithinPage f.block →
          PagesErased p'.toTransfer ((p.dispatch cmdData f.seq f.block).run w).2.calls := by
    rw [hcalls, erasedFirst_write, hbegun.written_iff ht hb]
    refine ⟨and_iff_right hfirst, fun p' hrun hwithin => ?_⟩
    rcases hcontext p' hrun with htransfer | htransfer
    · rw [htransfer]
      exact hbegun.advanced ht hb hf hwithin flash
    · rw [htransfer]
      exact .of_not_receiving p.abort_not_receiving
  rw [dispatch_takes ht hb hf] at hwrite hcontext ⊢
  by_cases hpage : p.bytesWritten % flashPageSize = 0
  · rcases calls_boundary (p := { p with cntFramesOk := p.cntFramesOk + 1 }) hpage f w with
      ⟨hcalls, hidle⟩ | ⟨flash, hcalls⟩
    · -- the erase failed
      rw [hcalls]
      have hwithin : p.WithinPage f.block := by
        rw [Transfer.pageBoundary_iff] at hpage
        unfold Transfer.WithinPage
        omega
      exact ⟨iff_of_true (hfirst.erase _ _) hwithin,
        fun p' hrun _ => .of_not_receiving (hidle p' hrun)⟩
    · exact hwrite (w.calls ++ [(w.state, .erasePage p.blockAddr)]) flash
        (hcalls.trans (by rw [List.append_assoc]; rfl)) (hfirst.erase _ _)
        (hpages.boundary ht.state hb hpage w.state)
  · exact hwrite w.calls w.state
      (calls_inside (p := { p with cntFramesOk := p.cntFramesOk + 1 }) hpage f w) hfirst
      (hpages.inside ht.state hpage)

/-- Calls are only added. -/
theorem calls_dispatch_data (hb : p.Bounded) (hf : f.Admitted) (w : World Flash FlashCall) :
    w.calls <+: ((p.dispatch cmdData f.seq f.block).run w).2.calls := by
  by_cases ht : p.Takes f
  · rw [dispatch_takes ht hb hf]
    by_cases hpage : p.bytesWritten % flashPageSize = 0
    · rcases calls_boundary (p := { p with cntFramesOk := p.cntFramesOk + 1 }) hpage f w with
        ⟨hcalls, -⟩ | ⟨flash, hcalls⟩
      · exact ⟨_, hcalls.symm⟩
      · exact ⟨_, hcalls.symm⟩
    · exact ⟨_, (calls_inside (p := { p with cntFramesOk := p.cntFramesOk + 1 }) hpage f w).symm⟩
  · obtain ⟨p', hpure, -⟩ := dispatch_refused ht hb hf
    rw [hpure]
    exact List.prefix_rfl

theorem calls_feedData (hb : p.Bounded) {frames : List DataFrame}
    (hadmitted : ∀ f ∈ frames, f.Admitted) (w : World Flash FlashCall) :
    w.calls <+: ((p.feedData frames).run w).2.calls := by
  induction frames generalizing p w with
  | nil => exact List.prefix_rfl
  | cons f frames ih =>
      have hf := hadmitted f List.mem_cons_self
      have hone := calls_dispatch_data hb hf w
      have hbounded := dispatch_data_bounded hb hf.length_lt w
      rw [Protocol.feedData, Faulty.run_bind]
      cases hrun : (p.dispatch cmdData f.seq f.block).run w with
      | mk out w' =>
          rw [hrun] at hone hbounded
          cases out with
          | cut => exact hone
          | done p' =>
              exact hone.trans (ih (hbounded _ rfl)
                (fun f hf => hadmitted f (List.mem_cons_of_mem _ hf)) w')

/-- Blocks are written to erased pages exactly when each stays within its page. -/
theorem erasedFirst_feedData (hb : p.Bounded) {frames : List DataFrame}
    (hadmitted : ∀ f ∈ frames, f.Admitted) (hfirst : ErasedFirst w.calls)
    (hpages : PagesErased p.toTransfer w.calls) :
    ErasedFirst ((p.feedData frames).run w).2.calls ↔
      ∀ v ∈ p.visits w frames, v.proto.Takes v.frame → v.proto.WithinPage v.frame.block := by
  induction frames generalizing p w with
  | nil => exact iff_of_true hfirst fun v hv => absurd hv List.not_mem_nil
  | cons f frames ih =>
      have hf := hadmitted f List.mem_cons_self
      have hframes (f' : DataFrame) (hf' : f' ∈ frames) :=
        hadmitted f' (List.mem_cons_of_mem _ hf')
      have hbounded := dispatch_data_bounded hb hf.length_lt w
      rw [Protocol.feedData, Faulty.run_bind, Protocol.visits, List.forall_mem_cons]
      by_cases ht : p.Takes f
      · have hstep := calls_takes ht hb hf hfirst hpages
        cases hrun : (p.dispatch cmdData f.seq f.block).run w with
        | mk out w' =>
            rw [hrun] at hbounded hstep
            cases out with
            | cut => simpa [ht] using hstep.1
            | done p' =>
                have hb' := hbounded _ rfl
                by_cases hwithin : p.WithinPage f.block
                · rw [ih hb' hframes (hstep.1.mpr hwithin) (hstep.2 p' rfl hwithin)]
                  exact (and_iff_right fun _ => hwithin).symm
                · -- the call stays on record
                  refine iff_of_false (fun hall => hwithin ?_) fun hall => hwithin (hall.1 ht)
                  exact hstep.1.mp (hall.of_prefix (calls_feedData hb' hframes w'))
      · obtain ⟨p', hpure, htransfer⟩ := dispatch_refused ht hb hf
        rw [hpure] at hbounded ⊢
        have hpages' : PagesErased p'.toTransfer w.calls := by
          rcases htransfer with h | h
          · rw [h]
            exact hpages
          · rw [h]
            exact .of_not_receiving p.abort_not_receiving
        rw [and_iff_right fun h => absurd h ht]
        exact ih (hbounded _ rfl) hframes hfirst hpages'

end Pages

/-! ## Blocks that are refused -/

/-- The frame is answered by ERR_FLASH. -/
def Visit.RefusedByFlash (v : Visit) : Prop :=
  ∃ p' w', (v.proto.dispatch cmdData v.frame.seq v.frame.block).run v.world = (.done p', w') ∧
    p'.tx = v.proto.tx ++ sendFrame rspNack v.frame.seq [errFlash]

section Refusals

variable {p p' : Protocol} {f : DataFrame} {w w' : World Flash FlashCall}

/-- On working flash a block that stays within its page is stored. -/
theorem dispatch_stores (ht : p.Takes f) (hb : p.Bounded) (hf : f.Admitted)
    (hcalm : w.Admitted .calm) (hrest : RestBlank w.state p.toTransfer)
    (hpage : p.WithinPage f.block) :
    ∃ p' w', (p.dispatch cmdData f.seq f.block).run w = (.done p', w') ∧ w'.Admitted .calm ∧
      w'.state = (Action.store f.seq f.block).image w.state p.toTransfer ∧
      p'.toTransfer = p.toTransfer.advanced f.seq (UInt32.ofNat f.block.length) ∧
      p'.tx = p.tx ++ sendFrame rspAck f.seq [] := by
  have hacts : Acts .calm w.state p _ _ := dispatch_acts hb cmdData f.seq f.block hf.length_lt
  obtain ⟨hcalm', hout⟩ := hacts (Action.allowed_calm _ _ _) w hcalm rfl
  cases hrun : (p.dispatch cmdData f.seq f.block).run w with
  | mk out w' =>
      rw [hrun] at hcalm' hout
      cases out with
      | cut => exact absurd Climate.calm_hasPower hout.1
      | done p' =>
          rw [ht.action hb hf] at hout
          obtain ⟨state, faults, calls⟩ := w'
          cases hout with
          | performed htransfer _ htx => exact ⟨p', _, rfl, hcalm', rfl, htransfer, htx _ rfl⟩
          | failed _ hready =>
              exact absurd (hrest.ready hb hpage f.seq) (hready Climate.calm_reportsNoError)

/-- On working flash no block that stays within its page is refused. -/
theorem not_refusedByFlash (hb : p.Bounded) {frames : List DataFrame}
    (hadmitted : ∀ f ∈ frames, f.Admitted) (hcalm : w.Admitted .calm)
    (hrest : RestBlank w.state p.toTransfer)
    (hwithin : ∀ v ∈ p.visits w frames, v.proto.Takes v.frame → v.proto.WithinPage v.frame.block) :
    ∀ v ∈ p.visits w frames, v.proto.Takes v.frame → ¬ v.RefusedByFlash := by
  induction frames generalizing p w with
  | nil => exact fun v hv => absurd hv List.not_mem_nil
  | cons f frames ih =>
      have hf := hadmitted f List.mem_cons_self
      have hframes (f' : DataFrame) (hf' : f' ∈ frames) :=
        hadmitted f' (List.mem_cons_of_mem _ hf')
      have hbounded := dispatch_data_bounded hb hf.length_lt w
      rw [Protocol.visits, List.forall_mem_cons] at hwithin ⊢
      by_cases ht : p.Takes f
      · have hpage := hwithin.1 ht
        obtain ⟨p', w', hrun, hcalm', hstate, htransfer, htx⟩ :=
          dispatch_stores ht hb hf hcalm hrest hpage
        have hstored := hrest.store hb (ht.continues hf) hpage f.seq
        rw [hrun] at hbounded hwithin ⊢
        refine ⟨fun _ => ?_, ih (hbounded _ rfl) hframes hcalm' ?_ hwithin.2⟩
        · rintro ⟨p'', w'', hrun', hnack⟩
          rw [hrun] at hrun'
          cases hrun'
          exact ack_ne_nack _ _ _ _ (htx.symm.trans hnack)
        · rw [hstate, htransfer]
          exact hstored
      · obtain ⟨p', hpure, htransfer⟩ := dispatch_refused ht hb hf
        have hrest' : RestBlank w.state p'.toTransfer := by
          rcases htransfer with h | h
          · rw [h]
            exact hrest
          · rw [h]
            exact fun hzero => absurd rfl hzero
        rw [hpure] at hbounded hwithin ⊢
        exact ⟨fun h => absurd h ht, ih (hbounded _ rfl) hframes hcalm hrest' hwithin.2⟩

end Refusals

/-! ## Transfers that can be completed -/

/-- Some CMD_DATA frames, all acknowledged on working flash, bring the transfer
to its announced size. -/
def Protocol.CanFinish (p : Protocol) (flash : Flash) : Prop :=
  ∃ (frames : List DataFrame) (p' : Protocol) (w' : World Flash FlashCall),
    (∀ f ∈ frames, f.block.length ≤ 1024) ∧
    (p.feedData frames).run ⟨flash, [], []⟩ = (.done p', w') ∧
    p'.tx = p.tx ++ frames.flatMap (fun f => sendFrame rspAck f.seq []) ∧
    p'.bytesWritten = p.fwSize

section Completion

variable {p p' : Protocol} {w w' : World Flash FlashCall} {s : Slot} {image : List UInt8}
  {sent : Nat} {seq : UInt16} {flash : Flash}

theorem feedData_bounded (hb : p.Bounded) {frames : List DataFrame}
    (hshort : ∀ f ∈ frames, f.block.length ≤ 1024) (w : World Flash FlashCall)
    (hrun : (p.feedData frames).run w = (.done p', w')) : p'.Bounded := by
  induction frames generalizing p w with
  | nil =>
      cases hrun
      exact hb
  | cons f frames ih =>
      have hlen := hshort f List.mem_cons_self
      have hbounded := dispatch_data_bounded hb (by omega : f.block.length < 65536) w
      rw [Protocol.feedData, Faulty.run_bind] at hrun
      cases hone : (p.dispatch cmdData f.seq f.block).run w with
      | mk out w₁ =>
          rw [hone] at hrun hbounded
          cases out with
          | cut => cases hrun
          | done p₁ =>
              exact ih (hbounded p₁ rfl) (fun f hf => hshort f (List.mem_cons_of_mem _ hf)) w₁ hrun

/-- Blocks are whole double-words. -/
theorem Protocol.CanFinish.aligned (h : p.CanFinish flash) (hb : p.Bounded) :
    p.fwSize.toNat % 8 = 0 := by
  obtain ⟨frames, p', w', hshort, hrun, -, hwritten⟩ := h
  rw [← hwritten]
  exact (feedData_bounded hb hshort _ hrun).aligned

/-- As much of the image as fits into the page and into a frame. -/
theorem exists_next (himage : Sendable image) (hmore : sent < image.length)
    (haligned : sent % 8 = 0) :
    ∃ block, Underway.Next image sent block ∧ block.length ≤ 1024 := by
  have hlength := himage.aligned
  refine ⟨(image.drop sent).take (min 1024 (2048 - sent % 2048)), ?_, ?_⟩
  · constructor <;> simp only [List.length_take, List.length_drop]
    · omega
    · omega
    · omega
    · rw [List.take_eq_take_iff, List.length_drop]
      omega
  · simp only [List.length_take]
    omega

/-- A block that comes next is taken. -/
theorem Loading.takes (h : Loading s image sent seq flash p.toTransfer) (himage : Sendable image)
    {block : List UInt8} (hblock : Underway.Next image sent block) : p.Takes ⟨seq, block⟩ where
  state := h.state
  new := h.lastSeq.symm
  inSequence := h.expectedSeq.symm
  inBounds := (h.continues himage hblock).fits

/-- A block that comes next is stored. -/
theorem Loading.dispatch (h : Loading s image sent seq w.state p.toTransfer)
    (himage : Sendable image) (hcalm : w.Admitted .calm) {block : List UInt8}
    (hblock : Underway.Next image sent block) (hshort : block.length ≤ 1024) :
    ∃ p' w', (p.dispatch cmdData seq block).run w = (.done p', w') ∧ w'.Admitted .calm ∧
      Loading s image (sent + block.length) (seq + 1) w'.state p'.toTransfer ∧
      p'.fwSize = p.fwSize ∧ p'.tx = p.tx ++ sendFrame rspAck seq [] := by
  obtain ⟨p', w', hrun, hcalm', hstate, htransfer, htx⟩ := dispatch_stores (h.takes himage hblock)
    (h.bounded himage) ⟨hblock.nonempty, hblock.aligned, hshort⟩ hcalm h.rest
    (h.withinPage hblock)
  refine ⟨p', w', hrun, hcalm', ?_, ?_, htx⟩
  · rw [hstate, htransfer]
    exact h.store himage hblock
  · rw [htransfer]
    rfl

/-- An image of whole double-words is stored block after block. -/
theorem Loading.finish (h : Loading s image sent seq w.state p.toTransfer)
    (himage : Sendable image) (hcalm : w.Admitted .calm) :
    ∃ (frames : List DataFrame) (p' : Protocol) (w' : World Flash FlashCall),
      (∀ f ∈ frames, f.block.length ≤ 1024) ∧ (p.feedData frames).run w = (.done p', w') ∧
      p'.tx = p.tx ++ frames.flatMap (fun f => sendFrame rspAck f.seq []) ∧
      p'.bytesWritten = p.fwSize := by
  -- on what is left of the image
  induction hleft : image.length - sent using Nat.strongRecOn generalizing p w sent seq with
  | ind left ih =>
  rcases Nat.lt_or_eq_of_le h.fits with hmore | rfl
  · obtain ⟨block, hblock, hshort⟩ := exists_next himage hmore h.aligned
    obtain ⟨p₁, w₁, hrun, hcalm₁, hloading, hsize, htx⟩ := h.dispatch himage hcalm hblock hshort
    have hpos := hblock.nonempty
    obtain ⟨frames, p', w', hshorts, hrest, htx', hwritten⟩ :=
      ih (image.length - (sent + block.length)) (by omega) hloading hcalm₁ rfl
    refine ⟨⟨seq, block⟩ :: frames, p', w', List.forall_mem_cons.mpr ⟨hshort, hshorts⟩, ?_, ?_,
      hwritten.trans hsize⟩
    · rw [Protocol.feedData, Faulty.run_bind_done hrun]
      exact hrest
    · rw [htx', htx, List.append_assoc]
      rfl
  · refine ⟨[], p, w, fun f hf => absurd hf List.not_mem_nil, rfl, (List.append_nil _).symm, ?_⟩
    rw [← UInt32.toNat_inj, h.written, h.fwSize, himage.toNat_size]

end Completion

/-! ## After a START_UPDATE -/

/-- The context when a START_UPDATE has been acknowledged. -/
structure Begun (p : Protocol) (seq : UInt16) (size : UInt32) : Prop where
  bounded : p.Bounded
  fwSize : p.fwSize = size
  written : p.bytesWritten = 0
  state : p.state = .receiving
  expectedSeq : p.expectedSeq = seq + 1
  lastSeq : p.lastSeq = seq
  size_ne_zero : size ≠ 0
  size_le : size.toNat ≤ 491520

section Start

variable {flash₀ flash : Flash} {events : List Event} {u : Session} {seq : UInt16}
  {data : List UInt8} {faults : List Fault} {p : Protocol} {w : World Flash FlashCall}
  {size : UInt32}

theorem begun_of_ack (hreach : (⟨flash₀, .reset⟩ : Board).run events = ⟨flash, .update u⟩)
    (hlen : data.length ≤ 1024)
    (hstart : (u.proto.dispatch cmdStartUpdate seq data).run ⟨flash, faults, []⟩ = (.done p, w))
    (hack : p.tx = u.proto.tx ++ sendFrame rspAck seq []) :
    Begun p seq (StartRequest.ofBytes data).size := by
  have hb : u.proto.Bounded := by
    have hbounded := Board.bounded_run (Board.bounded_reset flash₀) events
    rw [hreach] at hbounded
    exact hbounded u rfl
  obtain ⟨-, haccept, -, htransfer⟩ := start_acked hb (by omega) hstart hack
  have hsize := not_or.mp haccept.2.1
  have hle := UInt32.le_iff_toNat_le.mp (UInt32.not_lt.mp hsize.2)
  refine ⟨?_, ?_, ?_, ?_, ?_, ?_, hsize.1, hle⟩ <;> rw [htransfer]
  · exact ⟨hle, Nat.zero_le _, rfl⟩
  all_goals rfl

/-- Nothing of a page has been written. -/
theorem Begun.restBlank (h : Begun p seq size) (flash : Flash) : RestBlank flash p.toTransfer := by
  intro hne
  rw [h.written] at hne
  exact absurd rfl hne

theorem Begun.pagesErased (h : Begun p seq size) : PagesErased p.toTransfer [] := by
  intro _ page
  rw [h.written]
  simp [ErasedBy]

/-- Zeros to be stored. -/
def zeros (size : UInt32) : List UInt8 := List.replicate size.toNat 0

@[simp] theorem length_zeros (size : UInt32) : (zeros size).length = size.toNat :=
  List.length_replicate

theorem Begun.sendable (h : Begun p seq size) (haligned : size.toNat % 8 = 0) :
    Sendable (zeros size) := by
  have hne := h.size_ne_zero
  have hle := h.size_le
  rw [Ne, ← UInt32.toNat_inj] at hne
  change size.toNat ≠ 0 at hne
  constructor <;> rw [length_zeros] <;> omega

theorem Begun.loading (h : Begun p seq size) (flash : Flash) :
    Loading p.targetSlot (zeros size) 0 (seq + 1) flash p.toTransfer where
  content := rfl
  rest := h.restBlank flash
  state := h.state
  target := rfl
  fwSize := by rw [h.fwSize, length_zeros, UInt32.ofNat_toNat]
  written := by rw [h.written]; rfl
  fits := Nat.zero_le _
  aligned := rfl
  expectedSeq := h.expectedSeq
  lastSeq := by rw [h.lastSeq]; exact seq_ne_succ seq

/-- A board that waits for its first update accepts a START_UPDATE. -/
theorem waiting_start (seq : UInt16) (size crc ver : UInt32) (hpos : size ≠ 0)
    (hsize : size.toNat ≤ 491520) :
    ∃ p w, (protocolInit.dispatch cmdStartUpdate seq (startPayload size crc ver .b)).run
        ⟨Board.blank.flash, [], []⟩ = (.done p, w) ∧
      p.tx = protocolInit.tx ++ sendFrame rspAck seq [] := by
  have haction := action_start (t := protocolInit.toTransfer) Board.blank.flash seq crc ver hpos
    hsize
  rw [Board.blank_freeSlot] at haction
  obtain ⟨p, w, hrun, heffect, -⟩ := dispatch_calm Board.blank.flash Transfer.Bounded.init
    cmdStartUpdate seq (startPayload size crc ver .b) (by simp)
  rw [haction] at heffect
  obtain ⟨state, faults, calls⟩ := w
  cases heffect with
  | performed _ _ htx => exact ⟨p, _, hrun, htx seq rfl⟩
  | failed _ hready => exact absurd trivial (hready trivial)

theorem Begun.of_waiting {seq : UInt16} {size crc ver : UInt32} {p : Protocol}
    {w : World Flash FlashCall}
    (hrun : (protocolInit.dispatch cmdStartUpdate seq (startPayload size crc ver .b)).run
      ⟨Board.blank.flash, [], []⟩ = (.done p, w))
    (hack : p.tx = protocolInit.tx ++ sendFrame rspAck seq []) : Begun p seq size := by
  have hbegun : Begun p seq (StartRequest.ofBytes (startPayload size crc ver .b)).size :=
    begun_of_ack Board.run_waiting (by simp) hrun hack
  rwa [ofBytes_startPayload] at hbegun

end Start

end OtaBoot
