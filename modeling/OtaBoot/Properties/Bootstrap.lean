import OtaBoot.Host.WriteMetadata

/-!
# The bootstrap tool and the firmware

`write_metadata.py` and `metadata_mgr.c` have one format. They do not have one
rule of selection: the tool also takes records whose fields cannot be acted on.
Of the slot it does not bootstrap, the tool keeps the description, but not the
state.
-/

namespace OtaBoot.Host.WriteMetadata

open Storage LittleEndian Struct

/-! ## The format -/

section Format

/-- The values of a descriptor. -/
def infoFields (info : SlotInfo) : List Value :=
  [.int info.size.toNat, .int info.crc32.toNat, .int info.version.toNat, .int info.state.toNat,
    .bytes [info.reserved₀, info.reserved₁, info.reserved₂]]

/-- The values that `meta_crc32` covers. -/
def coveredFields (m : Metadata) : List Value :=
  [.int m.magic.toNat, .int m.counter.toNat] ++ infoFields m.slotA ++ infoFields m.slotB ++
    [.int m.activeSlot.toNat, .int m.bootFailCount.toNat, .bytes [m.reserved₀, m.reserved₁]]

/-- A record as the tuple that `struct.unpack` gives. -/
def fieldsOf (m : Metadata) : List Value := coveredFields m ++ [.int m.metaCrc32.toNat]

theorem pack_str (length : Nat) (cells : List UInt8) (h : cells.length = length) :
    (Field.str length).pack (.bytes cells) = some cells := by
  rw [Field.pack, ← h, List.take_left]

/-- The tool lays a record out as the firmware does. -/
theorem pack_covered (m : Metadata) :
    pack metaFmt.dropLast (coveredFields m) = some m.coveredBytes := by
  simp [pack, metaFmt, slotFmt, coveredFields, infoFields, pack_str, Metadata.coveredBytes,
    SlotInfo.toBytes]

theorem pack_fields (m : Metadata) : pack metaFmt (fieldsOf m) = some m.toBytes := by
  simp [pack, metaFmt, slotFmt, fieldsOf, coveredFields, infoFields, pack_str,
    Metadata.coveredBytes, Metadata.toBytes, SlotInfo.toBytes]

theorem unpack_toBytes (m : Metadata) : unpack metaFmt m.toBytes = some (fieldsOf m) := by
  apply unpack_pack (pack_fields m)
  simp [metaFmt, slotFmt, fieldsOf, coveredFields, infoFields, Value.Exact]

end Format

/-! ## Selection -/

section Selection

/-- Magic and CRC are right; the fields may mean nothing. -/
def Intact (m : Metadata) : Prop :=
  m.magic = OtaBoot.metadataMagic ∧ crc32Compute m.coveredBytes = m.metaCrc32

instance : DecidablePred Intact := fun _ => inferInstanceAs (Decidable (_ ∧ _))

/-- The record on a page, when it is intact. -/
def intactPage (flash : Flash) (side : Side) : Option Metadata :=
  let m := Metadata.at flash (metaPage side).toNat
  if Intact m then some m else none

theorem intactPage_eq_some {flash : Flash} {side : Side} {m : Metadata} :
    intactPage flash side = some m ↔
      Metadata.at flash (metaPage side).toNat = m ∧ Intact m := by
  simp only [intactPage]
  split
  next h =>
    rw [Option.some.injEq]
    exact ⟨fun heq => ⟨heq, heq ▸ h⟩, And.left⟩
  next h =>
    refine iff_of_false (Option.some_ne_none _).symm ?_
    rintro ⟨rfl, hintact⟩
    exact h hintact

/-- The firmware wants a sound record besides. -/
theorem loadPage_eq_some_iff {flash : Flash} {side : Side} {m : Metadata} :
    loadPage flash side = some m ↔ intactPage flash side = some m ∧ m.Sound := by
  rw [intactPage_eq_some]
  constructor
  · intro h
    obtain ⟨hm, hvalid⟩ := loadPage_eq_some h
    obtain ⟨hmagic, hcrc, hsound⟩ := (metadataIsValid_iff m).mp hvalid
    exact ⟨⟨hm.symm, hmagic, hcrc⟩, hsound⟩
  · rintro ⟨⟨rfl, hmagic, hcrc⟩, hsound⟩
    exact if_pos ((metadataIsValid_iff _).mpr ⟨hmagic, hcrc, hsound⟩)

/-- The tool takes a page into account when it is intact. -/
theorem intact_iff (m : Metadata) :
    Intact m ↔ intAt (fieldsOf m) 0 = metadataMagic ∧
      (crc32Stm32 (m.toBytes.take 44) : Int) = intAt (fieldsOf m) 15 := by
  have hcovered : m.toBytes.take 44 = m.coveredBytes := List.take_left' rfl
  rw [Intact, hcovered, crc32Stm32_eq, ← UInt32.toNat_inj, ← UInt32.toNat_inj]
  change _ ↔ (m.magic.toNat : Int) = ((OtaBoot.metadataMagic.toNat : Nat) : Int) ∧
    ((crc32Compute m.coveredBytes).toNat : Int) = (m.metaCrc32.toNat : Int)
  rw [Nat.cast_inj, Nat.cast_inj]

theorem considerPage_toBytes (best : Option (List Value)) (m : Metadata) :
    considerPage best m.toBytes =
      if Intact m then
        match best with
        | none => .ok (some (fieldsOf m))
        | some b => if intAt b 1 < m.counter.toNat then .ok (some (fieldsOf m)) else .ok best
      else .ok best := by
  have hcounter : intAt (fieldsOf m) 1 = m.counter.toNat := rfl
  rw [considerPage, if_neg (not_not.mpr m.length_toBytes), unpack_toBytes]
  change (if intAt (fieldsOf m) 0 ≠ metadataMagic then pure best
    else if (crc32Stm32 (m.toBytes.take 44) : Int) ≠ intAt (fieldsOf m) 15 then pure best
    else _) = _
  by_cases h : Intact m
  · obtain ⟨hmagic, hcrc⟩ := (intact_iff m).mp h
    rw [if_pos h, if_neg (not_not.mpr hmagic), if_neg (not_not.mpr hcrc), hcounter]
    rfl
  · rw [if_neg h]
    split
    next => rfl
    next hmagic =>
      split
      next => rfl
      next hcrc => exact absurd ((intact_iff m).mpr ⟨not_not.mp hmagic, not_not.mp hcrc⟩) h

/-- The tool selects as from a record kept in two copies. -/
theorem readExisting_eq (flash : Flash) :
    readExisting (flash.read metaPageAAddr 48) (flash.read metaPageBAddr 48) =
      .ok ((DualCopy.authoritative (fun m : Metadata => m.counter.toNat)
        (intactPage flash)).map fieldsOf) := by
  have hpage (side : Side) : flash.read (metaPage side).toNat 48 =
      (Metadata.at flash (metaPage side).toNat).toBytes := (Metadata.toBytes_at _ _).symm
  rw [show metaPageAAddr = (metaPage .first).toNat from rfl,
    show metaPageBAddr = (metaPage .second).toNat from rfl, hpage, hpage]
  simp only [readExisting, List.foldlM_cons, List.foldlM_nil, considerPage_toBytes,
    DualCopy.authoritative, intactPage]
  set a := Metadata.at flash (metaPage .first).toNat
  set b := Metadata.at flash (metaPage .second).toNat
  have hcounter : intAt (fieldsOf a) 1 < b.counter.toNat ↔ a.counter.toNat < b.counter.toNat :=
    Int.ofNat_lt
  by_cases ha : Intact a
  · by_cases hb : Intact b
    · simp only [ha, hb, if_true, bind, Except.bind, hcounter]
      by_cases hlt : a.counter.toNat < b.counter.toNat
      · rw [if_pos hlt, if_pos hlt]
        rfl
      · rw [if_neg hlt, if_neg hlt]
        rfl
    · simp only [ha, hb, if_true, if_false, bind, Except.bind]
      rfl
  · by_cases hb : Intact b
    · simp only [ha, hb, if_true, if_false, bind, Except.bind]
      rfl
    · simp only [ha, hb, if_false, bind, Except.bind]
      rfl

theorem fieldsOf_injective : Function.Injective fieldsOf := by
  intro m n h
  apply Metadata.toBytes_injective
  rw [← Option.some.injEq, ← pack_fields, ← pack_fields, h]

/-- The tool picks the copy that the firmware picks exactly when every intact
page whose fields cannot be acted on is outranked by a page that can be used. -/
theorem readExisting_eq_metadataRead_iff (flash : Flash) :
    readExisting (flash.read metaPageAAddr 48) (flash.read metaPageBAddr 48) =
        .ok ((metadataRead flash).map fieldsOf) ↔
      ∀ side bad, intactPage flash side = some bad → ¬ bad.Sound →
        ∃ own, loadPage flash side.other = some own ∧
          DualCopy.Outranks (fun m : Metadata => m.counter.toNat) side.other own bad := by
  rw [readExisting_eq, metadataRead_eq_authoritative, Except.ok.injEq,
    (Option.map_injective fieldsOf_injective).eq_iff]
  exact DualCopy.authoritative_eq_iff fun side m => loadPage_eq_some_iff

/-- Page A holds a newer record that names no slot, page B a usable one. -/
def meaninglessNewer : Flash :=
  (Memory.store (fun _ => erasedByte) metaPageAAddr
    (({ Metadata.zero with activeSlot := 2 } : Metadata).stamped 2).toBytes).store metaPageBAddr
      (Metadata.zero.stamped 1).toBytes

/-- The firmware reads page B, the tool reads page A. -/
theorem readExisting_meaninglessNewer :
    metadataRead meaninglessNewer = some (Metadata.zero.stamped 1) ∧
      readExisting (meaninglessNewer.read metaPageAAddr 48)
          (meaninglessNewer.read metaPageBAddr 48) ≠
        .ok ((metadataRead meaninglessNewer).map fieldsOf) := by
  decide +kernel

end Selection

/-! ## Encoding -/

section Encoding

/-- A number that an `I` field holds. -/
def IsWord (n : Int) : Prop := 0 ≤ n ∧ n < 2 ^ 32

/-- The word that such a number is. -/
def word (n : Int) : UInt32 := UInt32.ofNat n.toNat

structure Image.IsWords (img : Image) : Prop where
  size : IsWord img.size
  crc : IsWord img.crc
  version : IsWord img.version

theorem toNat_word {n : Int} (h : IsWord n) : ((word n).toNat : Int) = n := by
  obtain ⟨hnonneg, hlt⟩ := h
  rw [word, UInt32.toNat_ofNat']
  omega

theorem word_toNat (w : UInt32) : word (w.toNat : Int) = w := by
  simp [word]

/-- The descriptor of an image, or of an absent one. -/
def infoOf : Option Image → SlotInfo
  | some img =>
      { SlotInfo.zero with
        size := word img.size, crc32 := word img.crc, version := word img.version,
        state := OtaBoot.stateValid }
  | none => .zero

/-- The record that the tool describes, as the firmware would be asked to write it. -/
def described (active : Slot) (images : Slot → Option Image) : Metadata :=
  { Metadata.zero with
    activeSlot := active.toByte, slotA := infoOf (images .a), slotB := infoOf (images .b) }

@[simp] theorem described_slot (active : Slot) (images : Slot → Option Image) (s : Slot) :
    (described active images).slot s = infoOf (images s) := by
  cases s <;> rfl

variable {active : Slot} {images : Slot → Option Image} {counter : Int}

theorem slotFields_eq {img : Option Image} (h : ∀ i, img = some i → i.IsWords) :
    slotFields img = infoFields (infoOf img) := by
  cases img with
  | none => rfl
  | some i =>
      have hwords := h i rfl
      simp only [slotFields, infoFields, infoOf, toNat_word hwords.size, toNat_word hwords.crc,
        toNat_word hwords.version]
      rfl

/-- The tool fills in the values of the record that the firmware would build. -/
theorem described_fields (hcounter : IsWord counter)
    (himages : ∀ s img, images s = some img → img.IsWords) :
    [.int metadataMagic, .int counter] ++ slotFields (images .a) ++ slotFields (images .b) ++
        [.int active.toByte.toNat, .int 0, .bytes [0, 0]] =
      coveredFields ((described active images).stamped (word counter)) := by
  have hmagic : metadataMagic = OtaBoot.metadataMagic.toNat := rfl
  have hcarried (img : Option Image) : (infoOf img).carried = infoOf img := by
    cases img <;> rfl
  rw [slotFields_eq (himages .a), slotFields_eq (himages .b), hmagic]
  nth_rewrite 1 [← toNat_word hcounter]
  rw [← hcarried, ← hcarried (images .b)]
  rfl

/-- The tool builds the record that the firmware would build. -/
theorem buildMetadata_eq (hcounter : IsWord counter)
    (himages : ∀ s img, images s = some img → img.IsWords) :
    buildMetadata active.toByte.toNat images counter =
      .ok ((described active images).stamped (word counter)).toBytes := by
  rw [buildMetadata, described_fields hcounter himages, pack_covered, orStructError_bind]
  have hcrc := stamped_crc (described active images) (word counter)
  generalize (described active images).stamped (word counter) = m at hcrc
  have hfield : pack [.uint 4] [.int (crc32Stm32 m.coveredBytes)] = some (bytes32 m.metaCrc32) := by
    rw [crc32Stm32_eq, hcrc]
    simp [pack]
  rw [if_neg (not_not.mpr m.length_coveredBytes), hfield, orStructError_bind]
  rfl

theorem getElem?_toBytes_stamped (src : Metadata) (c c' : UInt32) {i : Nat} (hi : i < 44)
    (hcounter : ¬ (4 ≤ i ∧ i < 8)) :
    (src.stamped c).toBytes[i]? = (src.stamped c').toBytes[i]? := by
  -- the magic, the counter, what is described
  have hsplit (c : UInt32) : (src.stamped c).toBytes = bytes32 OtaBoot.metadataMagic ++
      (bytes32 c ++ ((src.stamped 0).coveredBytes.drop 8 ++ bytes32 (src.stamped c).metaCrc32)) :=
    rfl
  have hmiddle : ((src.stamped 0).coveredBytes.drop 8).length = 36 := by
    rw [List.length_drop, Metadata.length_coveredBytes]
  rw [hsplit, hsplit]
  by_cases hfront : i < 4
  · rw [List.getElem?_append_left hfront, List.getElem?_append_left hfront]
  · have hback : 8 ≤ i := by omega
    simp only [List.getElem?_append, length_bytes32, hmiddle]
    simp [hfront, show ¬ i - 4 < 4 by omega, show i - 4 - 4 < 36 by omega]

theorem isWord_of_pack {n : Int} (h : ((Field.uint 4).pack (.int n)).isSome) : IsWord n := by
  rw [Field.pack] at h
  split at h
  next hrange => exact hrange
  next => cases h

/-- The tool raises unless everything fits. -/
theorem isWord_of_buildMetadata {bytes : List UInt8}
    (h : buildMetadata active.toByte.toNat images counter = .ok bytes) :
    IsWord counter ∧ ∀ s img, images s = some img → img.IsWords := by
  rw [buildMetadata] at h
  cases hhead : pack metaFmt.dropLast ([.int metadataMagic, .int counter] ++
      slotFields (images .a) ++ slotFields (images .b) ++
        [.int active.toByte.toNat, .int 0, .bytes [0, 0]]) with
  | none =>
      rw [hhead] at h
      cases h
  | some head =>
      have hall := forall_pack hhead
      have hfmt : metaFmt.dropLast = [.uint 4, .uint 4, .uint 4, .uint 4, .uint 4, .uint 1, .str 3,
        .uint 4, .uint 4, .uint 4, .uint 1, .str 3, .uint 1, .uint 1, .str 2] := rfl
      rw [hfmt] at hall
      refine ⟨?_, fun s img himg => ?_⟩
      · simp only [List.cons_append, List.nil_append, List.forall₂_cons] at hall
        exact isWord_of_pack hall.2.1
      · cases s with
        | a =>
            rw [himg] at hall
            simp only [slotFields, List.cons_append, List.nil_append, List.forall₂_cons] at hall
            obtain ⟨-, -, hsize, hcrc, hversion, -⟩ := hall
            exact ⟨isWord_of_pack hsize, isWord_of_pack hcrc, isWord_of_pack hversion⟩
        | b =>
            rw [himg] at hall
            cases ha : images .a
            all_goals
              rw [ha] at hall
              simp only [slotFields, List.cons_append, List.nil_append, List.forall₂_cons] at hall
              obtain ⟨-, -, -, -, -, -, -, hsize, hcrc, hversion, -⟩ := hall
              exact ⟨isWord_of_pack hsize, isWord_of_pack hcrc, isWord_of_pack hversion⟩

/-- What `slot[s]` says of an image, or of none. -/
def Describes : Option Image → SlotInfo → Prop
  | some img, info => (info.size.toNat : Int) = img.size ∧ (info.crc32.toNat : Int) = img.crc ∧
      (info.version.toNat : Int) = img.version ∧ info.state = OtaBoot.stateValid
  | none, info => info = .zero

theorem describes_infoOf {img : Option Image} (h : ∀ i, img = some i → i.IsWords) :
    Describes img (infoOf img) := by
  cases img with
  | none => rfl
  | some i =>
      have hwords := h i rfl
      exact ⟨toNat_word hwords.size, toNat_word hwords.crc, toNat_word hwords.version, rfl⟩

theorem described_sound (hsize : ∀ s img, images s = some img → img.size ≤ slotSize)
    (himages : ∀ s img, images s = some img → img.IsWords) :
    (described active images).Sound where
  activeSlot := active.toByte_le
  state := by
    intro s
    rw [described_slot]
    cases images s with
    | none => decide
    | some img => exact UInt8.le_refl _
  size := by
    intro s
    rw [described_slot]
    cases himg : images s with
    | none => decide
    | some img =>
        rw [UInt32.le_iff_toNat_le, infoOf]
        have hword := toNat_word (himages s img himg).size
        have hbound : img.size ≤ 491520 := hsize s img himg
        change (word img.size).toNat ≤ 491520
        omega

/-- What the tool encodes the firmware accepts and decodes, and `metadata_write`
encodes the same, but for the counter and the CRC. -/
theorem formats_agree (active : Slot) (images : Slot → Option Image) (counter : Int)
    (hcounter : IsWord counter)
    (himages : ∀ s img, images s = some img → img.IsWords ∧ img.size ≤ slotSize) :
    ∃ (bytes : List UInt8) (m : Metadata),
      buildMetadata active.toByte.toNat images counter = .ok bytes ∧ bytes.length = 48 ∧
      (∀ (memory : Memory UInt8) (addr : Nat),
        Metadata.at (memory.store addr bytes) addr = m) ∧
      metadataIsValid m = true ∧ (m.counter.toNat : Int) = counter ∧
      m.activeSlot = active.toByte ∧ m.bootFailCount = 0 ∧
      (∀ s, Describes (images s) (m.slot s)) ∧
      ∀ flash : Flash, ((metadataWrite m).run ⟨flash, [], []⟩).1 = .done .ok ∧
        ∀ (faults : List Fault) (w : World Flash FlashCall),
          (metadataWrite m).run ⟨flash, faults, []⟩ = (.done .ok, w) →
          ∀ i < 44, ¬ (4 ≤ i ∧ i < 8) →
            (w.state.read (metaPage (selectTarget flash).1).toNat 48)[i]? = bytes[i]? := by
  have hwords := fun s img h => (himages s img h).1
  set src := described active images with hsrc
  have hsound : src.Sound := described_sound (fun s img h => (himages s img h).2) hwords
  have hvalid : metadataIsValid (src.stamped (word counter)) = true :=
    (stamped_valid_iff _ _).mpr hsound
  refine ⟨_, src.stamped (word counter), buildMetadata_eq hcounter hwords,
    Metadata.length_toBytes _, fun memory addr => Metadata.at_store _ _ _, hvalid,
    toNat_word hcounter, rfl, rfl, fun s => ?_,
    fun flash => ⟨?_, fun faults w hwritten i hi hi' => ?_⟩⟩
  · have hdescribes := describes_infoOf (hwords s)
    rw [stamped_slot, hsrc, described_slot]
    cases himg : images s <;> rw [himg] at hdescribes <;> exact hdescribes
  · obtain ⟨st, w, hrun, -, -, hok⟩ := (metadataWrite_triple (c := Climate.calm) flash
      (src.stamped (word counter)) trivial trivial).run_calm
    have hsoundly := ((metadataIsValid_iff _).mp hvalid).2.2
    rw [hrun, hok Climate.calm_reportsNoError hsoundly]
  · have hrun := (metadataWrite_triple (c := Climate.harsh) flash (src.stamped (word counter))
      trivial trivial).run_from faults fun _ _ => trivial
    rw [hwritten] at hrun
    obtain ⟨⟨-, hok, -⟩, -⟩ := hrun
    have hread := Memory.read_store_self (flash.erased (metaPage (selectTarget flash).1))
      (metaPage (selectTarget flash).1).toNat
      (writtenRecord flash (src.stamped (word counter))).toBytes
    rw [Metadata.length_toBytes, ← completeImage_eq, ← (hok rfl).2] at hread
    rw [hread]
    exact getElem?_toBytes_stamped src _ _ hi hi'

/-- Slot A is described, slot B is not. -/
theorem formats_agree_slotA :
    ∃ (bytes : List UInt8) (m : Metadata),
      buildMetadata 0 (fun s => if s = .a then some ⟨1000, 0xCAFE, 0x10000⟩ else none) 7 =
        .ok bytes ∧ bytes.length = 48 ∧
      Metadata.at (Memory.store (fun _ => erasedByte) 0 bytes) 0 = m ∧
      metadataIsValid m = true ∧ (m.counter.toNat : Int) = 7 ∧
      Describes (some ⟨1000, 0xCAFE, 0x10000⟩) (m.slot .a) ∧ Describes none (m.slot .b) := by
  obtain ⟨bytes, m, hbuild, hlen, hat, hvalid, hcounter, -, -, hdescribes, -⟩ :=
    formats_agree .a (fun s => if s = .a then some ⟨1000, 0xCAFE, 0x10000⟩ else none) 7
      (by constructor <;> decide) (by
        intro s img himg
        split at himg
        · cases himg
          exact ⟨⟨by constructor <;> decide, by constructor <;> decide, by constructor <;> decide⟩,
            by decide⟩
        · cases himg)
  exact ⟨bytes, m, hbuild, hlen, hat _ _, hvalid, hcounter, hdescribes .a, hdescribes .b⟩

end Encoding

/-! ## The other slot -/

section Preserve

variable {flash flash' : Flash} {slot : Slot} {data : List UInt8} {parts : List Int}

/-- The record that the tool starts from. -/
def toolRecord (flash : Flash) : Option Metadata :=
  DualCopy.authoritative (fun m : Metadata => m.counter.toNat) (intactPage flash)

/-- What the tool keeps of a slot. -/
def keptImage (m : Metadata) (s : Slot) : Option Image :=
  if (m.slot s).state ≠ OtaBoot.stateEmpty ∧ (m.slot s).size ≠ 0 then
    some ⟨(m.slot s).size.toNat, (m.slot s).crc32.toNat, (m.slot s).version.toNat⟩
  else none

theorem infoOf_keptImage (m : Metadata) (s : Slot) :
    infoOf (keptImage m s) =
      if (m.slot s).state ≠ OtaBoot.stateEmpty ∧ (m.slot s).size ≠ 0 then
        { (m.slot s).carried with state := OtaBoot.stateValid }
      else .zero := by
  unfold keptImage
  split
  · simp only [infoOf, word_toNat]
    rfl
  · rfl

theorem preserve_images (m : Metadata) {images : Slot → Option Image}
    (hother : images slot.other = none) :
    (preserve (some (fieldsOf m)) slot images).2 slot.other = keptImage m slot.other := by
  have hstate : intAt (fieldsOf m) (2 + slot.other.toByte.toNat * 5 + 3) =
      (m.slot slot.other).state.toNat := by
    cases slot <;> rfl
  have hsize : intAt (fieldsOf m) (2 + slot.other.toByte.toNat * 5) =
      (m.slot slot.other).size.toNat := by
    cases slot <;> rfl
  have hcrc : intAt (fieldsOf m) (2 + slot.other.toByte.toNat * 5 + 1) =
      (m.slot slot.other).crc32.toNat := by
    cases slot <;> rfl
  have hversion : intAt (fieldsOf m) (2 + slot.other.toByte.toNat * 5 + 2) =
      (m.slot slot.other).version.toNat := by
    cases slot <;> rfl
  have hempty : ((m.slot slot.other).state.toNat : Int) ≠ stateEmpty ↔
      (m.slot slot.other).state ≠ OtaBoot.stateEmpty := by
    rw [ne_eq, ne_eq, ← UInt8.toNat_inj]
    exact not_congr Nat.cast_inj
  have hzero : ((m.slot slot.other).size.toNat : Int) ≠ 0 ↔ (m.slot slot.other).size ≠ 0 := by
    rw [ne_eq, ne_eq, ← UInt32.toNat_inj]
    exact not_congr Nat.cast_inj
  simp only [preserve, hstate, hsize, hcrc, hversion, hempty, hzero, keptImage]
  split
  · exact Function.update_self ..
  · exact hother

/-- A run of the tool that is not refused. -/
theorem main_ok (h : main flash slot data parts = .ok flash') :
    ∃ images counter,
      Metadata.at flash' metaPageAAddr = (described slot images).stamped counter ∧
      ∀ m, toolRecord flash = some m → images slot.other = keptImage m slot.other := by
  rw [main, readExisting_eq] at h
  split at h
  next => cases h
  next =>
    set images : Slot → Option Image := fun s =>
      if s = slot then some ⟨(padded data).length, crc32Stm32 (padded data), versionOf parts⟩
      else none
    have hother : images slot.other = none := if_neg slot.other_ne
    set kept := preserve ((toolRecord flash).map fieldsOf) slot images with hkept
    change (buildMetadata slot.toByte.toNat kept.2 kept.1 >>= _) = _ at h
    cases hbuild : buildMetadata slot.toByte.toNat kept.2 kept.1 with
    | error e =>
        rw [hbuild] at h
        cases h
    | ok record =>
        obtain ⟨hcounter, himages⟩ := isWord_of_buildMetadata hbuild
        rw [buildMetadata_eq hcounter himages] at h
        set written := (described slot kept.2).stamped (word kept.1) with hwritten
        have hlen : ¬ written.toBytes.length ≠ 48 := not_not.mpr written.length_toBytes
        have hstored : (if written.toBytes.length ≠ 48 then throw ToolError.systemExit else
            pure ((flash.fill metaPageAAddr 4096 0xFF).store metaPageAAddr written.toBytes)) =
            Except.ok flash' := h
        rw [if_neg hlen] at hstored
        cases hstored
        refine ⟨kept.2, word kept.1, ?_, fun m hm => ?_⟩
        · rw [← hwritten]
          exact Metadata.at_store _ _ _
        · rw [hkept, hm]
          exact preserve_images m hother

/-- The tool starts from the authoritative record, unless a page whose fields
cannot be acted on outranks it. -/
theorem toolRecord_cases {m : Metadata} (hread : metadataRead flash = some m) :
    toolRecord flash = some m ∧
        (∀ side bad, intactPage flash side = some bad → ¬ bad.Sound →
          ¬ DualCopy.Outranks (fun m : Metadata => m.counter.toNat) side bad m) ∨
      ∃ side bad, intactPage flash side = some bad ∧ ¬ bad.Sound ∧
        DualCopy.Outranks (fun m : Metadata => m.counter.toNat) side bad m ∧
        toolRecord flash = some bad ∧
        ∀ side' bad', intactPage flash side' = some bad' → ¬ bad'.Sound → bad' = bad := by
  obtain ⟨home, hhome⟩ := exists_loadPage_of_metadataRead hread
  obtain ⟨hintact, hsound⟩ := loadPage_eq_some_iff.mp hhome
  -- what is unsound lies on the other page
  have hother {side : Side} {bad : Metadata} (hbad : intactPage flash side = some bad)
      (hunsound : ¬ bad.Sound) : side = home.other := by
    rcases home.eq_or_eq_other side with rfl | rfl
    · rw [hintact] at hbad
      cases hbad
      exact absurd hsound hunsound
    · rfl
  by_cases hall : ∃ side bad, intactPage flash side = some bad ∧ ¬ bad.Sound
  · obtain ⟨side, bad, hbad, hunsound⟩ := hall
    obtain rfl := hother hbad hunsound
    have hunique : ∀ side' bad', intactPage flash side' = some bad' → ¬ bad'.Sound →
        bad' = bad := by
      intro side' bad' hbad' hunsound'
      obtain rfl := hother hbad' hunsound'
      rw [hbad] at hbad'
      exact (Option.some.inj hbad').symm
    by_cases hwins : DualCopy.Outranks (fun m : Metadata => m.counter.toNat) home m bad
    · refine .inl ⟨DualCopy.authoritative_of_outranks hintact hbad hwins, ?_⟩
      intro side' bad' hbad' hunsound'
      obtain rfl := hother hbad' hunsound'
      rw [hunique _ _ hbad' hunsound', DualCopy.outranks_other_iff]
      exact not_not.mpr hwins
    · have hloses := DualCopy.outranks_other_iff.mpr hwins
      refine .inr ⟨home.other, bad, hbad, hunsound, hloses, ?_, hunique⟩
      exact DualCopy.authoritative_of_outranks hbad (by rwa [Side.other_other]) hloses
  · push Not at hall
    refine .inl ⟨?_, fun side bad hbad hunsound => absurd (hall side bad hbad) hunsound⟩
    rw [toolRecord, ← hread, metadataRead_eq_authoritative,
      DualCopy.authoritative_eq_iff fun side m => loadPage_eq_some_iff]
    exact fun side bad hbad hunsound => absurd (hall side bad hbad) hunsound

/-- Two descriptors are of the same image. -/
structure SameImage (i j : SlotInfo) : Prop where
  size : i.size = j.size
  crc32 : i.crc32 = j.crc32
  version : i.version = j.version

/-- What the tool writes of the slot that it does not bootstrap. -/
theorem main_slot_other (h : main flash slot data parts = .ok flash') {t : Metadata}
    (ht : toolRecord flash = some t) :
    (Metadata.at flash' metaPageAAddr).slot slot.other =
      if (t.slot slot.other).state ≠ OtaBoot.stateEmpty ∧ (t.slot slot.other).size ≠ 0 then
        { (t.slot slot.other).carried with state := OtaBoot.stateValid }
      else .zero := by
  obtain ⟨images, counter, hat, hkept⟩ := main_ok h
  rw [hat, stamped_slot, described_slot, hkept t ht, infoOf_keptImage]
  split
  · rfl
  · rfl

/-- What the tool makes of a descriptor stands for another one. -/
theorem kept_iff (old own : SlotInfo) {written : SlotInfo}
    (hwritten : written =
      if own.state ≠ OtaBoot.stateEmpty ∧ own.size ≠ 0 then
        { own.carried with state := OtaBoot.stateValid }
      else .zero) :
    (old.state ≠ OtaBoot.stateEmpty → SameImage written old ∧ written.state = old.state) ↔
      old.state = OtaBoot.stateEmpty ∨ old.state = OtaBoot.stateValid ∧ old.size ≠ 0 ∧
        own.state ≠ OtaBoot.stateEmpty ∧ SameImage own old := by
  subst hwritten
  constructor
  · intro h
    by_cases hold : old.state = OtaBoot.stateEmpty
    · exact .inl hold
    obtain ⟨hsame, hstate⟩ := h hold
    split at hsame
    next hkept =>
      rw [if_pos hkept] at hstate
      exact .inr ⟨hstate.symm, hsame.size ▸ hkept.2, hkept.1, hsame.size, hsame.crc32,
        hsame.version⟩
    next hdropped =>
      rw [if_neg hdropped] at hstate
      exact absurd hstate.symm hold
  · rintro (hempty | ⟨hvalid, hsize, hstate, hsame⟩) hold
    · exact absurd hempty hold
    · rw [if_pos ⟨hstate, hsame.size ▸ hsize⟩]
      exact ⟨⟨hsame.size, hsame.crc32, hsame.version⟩, hvalid.symm⟩

/-- The other slot stays as it was exactly when it was empty, or valid and not of
size zero, and described alike by any page that the tool wrongly prefers. -/
theorem other_slot_kept_iff {m : Metadata} (hread : metadataRead flash = some m)
    (hmain : main flash slot data parts = .ok flash') :
    ((m.slot slot.other).state ≠ OtaBoot.stateEmpty →
        SameImage ((Metadata.at flash' metaPageAAddr).slot slot.other) (m.slot slot.other) ∧
        ((Metadata.at flash' metaPageAAddr).slot slot.other).state = (m.slot slot.other).state) ↔
      (m.slot slot.other).state = OtaBoot.stateEmpty ∨
      (m.slot slot.other).state = OtaBoot.stateValid ∧ (m.slot slot.other).size ≠ 0 ∧
        ∀ side bad, intactPage flash side = some bad → ¬ bad.Sound →
          DualCopy.Outranks (fun m : Metadata => m.counter.toNat) side bad m →
          (bad.slot slot.other).state ≠ OtaBoot.stateEmpty ∧
            SameImage (bad.slot slot.other) (m.slot slot.other) := by
  have hvalid : OtaBoot.stateValid ≠ OtaBoot.stateEmpty := by decide
  rcases toolRecord_cases hread with
    ⟨htool, hnone⟩ | ⟨side, bad, hbad, hunsound, hwins, htool, hone⟩
  · rw [kept_iff _ _ (main_slot_other hmain htool)]
    refine or_congr_right ⟨?_, ?_⟩
    · rintro ⟨hstate, hsize, -, -⟩
      exact ⟨hstate, hsize, fun side bad hbad hunsound hwins =>
        absurd hwins (hnone side bad hbad hunsound)⟩
    · rintro ⟨hstate, hsize, -⟩
      exact ⟨hstate, hsize, hstate ▸ hvalid, rfl, rfl, rfl⟩
  · rw [kept_iff _ _ (main_slot_other hmain htool)]
    refine or_congr_right ⟨?_, ?_⟩
    · rintro ⟨hstate, hsize, hbadstate, hsame⟩
      refine ⟨hstate, hsize, fun side' bad' hbad' hunsound' _ => ?_⟩
      rw [hone side' bad' hbad' hunsound']
      exact ⟨hbadstate, hsame⟩
    · rintro ⟨hstate, hsize, halike⟩
      exact ⟨hstate, hsize, halike side bad hbad hunsound hwins⟩

/-- Slot A is active; slot B is described, in this state. -/
def besideA (state : UInt8) : Metadata :=
  ({ Metadata.zero with
    slotA := ⟨16, 0xCAFE, 0x10000, OtaBoot.stateValid, 0, 0, 0⟩
    slotB := ⟨8, 0xBEEF, 0x20000, state, 0, 0, 0⟩ } : Metadata).stamped 5

/-- A board whose metadata is this record. -/
def boardWith (m : Metadata) : Flash :=
  Memory.store (fun _ => erasedByte) metaPageAAddr m.toBytes

/-- An image that is being received becomes a valid one. -/
theorem main_besideA_inProgress :
    ∃ m flash', metadataRead (boardWith (besideA stateInProgress)) = some m ∧
      main (boardWith (besideA stateInProgress)) .a [1, 2, 3, 4, 5, 6, 7, 8] [1, 0, 0] =
        .ok flash' ∧
      ¬ ((m.slot .b).state ≠ OtaBoot.stateEmpty →
        SameImage ((Metadata.at flash' metaPageAAddr).slot .b) (m.slot .b) ∧
        ((Metadata.at flash' metaPageAAddr).slot .b).state = (m.slot .b).state) := by
  have hread : metadataRead (boardWith (besideA stateInProgress)) =
      some (besideA stateInProgress) := by
    decide +kernel
  have hstate : (main (boardWith (besideA stateInProgress)) .a [1, 2, 3, 4, 5, 6, 7, 8]
      [1, 0, 0]).toOption.map (fun f => ((Metadata.at f metaPageAAddr).slot .b).state) =
        some OtaBoot.stateValid := by
    decide +kernel
  cases hmain : main (boardWith (besideA stateInProgress)) .a [1, 2, 3, 4, 5, 6, 7, 8]
      [1, 0, 0] with
  | error e =>
      rw [hmain] at hstate
      cases hstate
  | ok flash' =>
      rw [hmain] at hstate
      have hvalid : ((Metadata.at flash' metaPageAAddr).slot .b).state = OtaBoot.stateValid :=
        Option.some.inj hstate
      refine ⟨_, flash', hread, rfl, fun h => ?_⟩
      have hkept := (h (by decide)).2
      rw [hvalid] at hkept
      exact absurd hkept (by decide)

/-- A valid image stays one. -/
theorem other_slot_kept_besideA_valid :
    ∃ m flash', metadataRead (boardWith (besideA OtaBoot.stateValid)) = some m ∧
      main (boardWith (besideA OtaBoot.stateValid)) .a [1, 2, 3] [1, 2] = .ok flash' ∧
      SameImage ((Metadata.at flash' metaPageAAddr).slot .b) (m.slot .b) ∧
      ((Metadata.at flash' metaPageAAddr).slot .b).state = (m.slot .b).state := by
  have hread : metadataRead (boardWith (besideA OtaBoot.stateValid)) =
      some (besideA OtaBoot.stateValid) := by
    decide +kernel
  have hok : (main (boardWith (besideA OtaBoot.stateValid)) .a [1, 2, 3] [1, 2]).isOk := by
    decide +kernel
  have hpages : ∀ side, (intactPage (boardWith (besideA OtaBoot.stateValid)) side).all
      (fun bad => metadataIsValid bad) := by
    intro side
    cases side <;> decide +kernel
  cases hmain : main (boardWith (besideA OtaBoot.stateValid)) .a [1, 2, 3] [1, 2] with
  | error e =>
      rw [hmain] at hok
      cases hok
  | ok flash' =>
      refine ⟨_, flash', hread, rfl, ?_⟩
      refine (other_slot_kept_iff hread hmain).mpr (.inr ⟨rfl, by decide, ?_⟩) (by decide)
      intro side bad hbad hunsound
      have hvalid := hpages side
      rw [hbad] at hvalid
      exact absurd ((metadataIsValid_iff bad).mp hvalid).2.2 hunsound

end Preserve

end OtaBoot.Host.WriteMetadata
