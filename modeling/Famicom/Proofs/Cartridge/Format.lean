import Famicom.Cartridge.Image
import Famicom.Proofs.Bits

/-!
# The image format

Which bytes are the image of a cartridge, of which cartridge, and what is said of all others.  The
format is stated by offsets into the image and by the bits of its header; reading an image accepts
exactly that format and otherwise reports the first check that fails.  The plain way of writing a
cartridge down is an image of it, whatever follows behind.
-/

namespace Famicom.Cartridge

/-! ### What a header declares -/

/-- A byte of an image as a number; zero behind its end. -/
def byteAt (image : Array UInt8) (i : Nat) : Nat :=
  (image.getD i 0).toNat

def bitAt (image : Array UInt8) (i bit : Nat) : Bool :=
  (byteAt image i).testBit bit

/-- The header carries junk from its seventh byte on: neither bit 2 nor bit 3 of that byte is set,
and the last four bytes are not all zero. -/
def archaic (image : Array UInt8) : Bool :=
  !bitAt image 7 2 && !bitAt image 7 3 && [12, 13, 14, 15].any (byteAt image · != 0)

/-- The mapper number: the high half of the sixth byte, and above it that of the seventh unless
the header is archaic. -/
def declaredMapper (image : Array UInt8) : Nat :=
  byteAt image 6 / 16 + if archaic image then 0 else byteAt image 7 / 16 * 16

/-- The mirroring: memory for four screens overrides the bit that chooses between two. -/
def declaredMirroring (image : Array UInt8) : Mirroring :=
  if bitAt image 6 3 then .fourScreen else if bitAt image 6 0 then .vertical else .horizontal

def declaredPrgStart (image : Array UInt8) : Nat :=
  16 + if bitAt image 6 2 then 512 else 0

def declaredPrgSize (image : Array UInt8) : Nat :=
  16384 * byteAt image 4

def declaredChrStart (image : Array UInt8) : Nat :=
  declaredPrgStart image + declaredPrgSize image

def declaredChrSize (image : Array UInt8) : Nat :=
  8192 * byteAt image 5

/-! ### The format -/

/-- The bytes are an image of some cartridge; anything may follow. -/
structure Fits (image : Array UInt8) : Prop where
  header : 16 ≤ image.size
  magic : image.toList.take 4 = [0x4E, 0x45, 0x53, 0x1A]
  prg : byteAt image 4 ≠ 0
  mapper : declaredMapper image ∈ [0, 1, 2, 3, 4, 7]
  whole : 16 + (if bitAt image 6 2 then 512 else 0) + 16384 * byteAt image 4 +
    8192 * byteAt image 5 ≤ image.size

/-- The cartridge has the memories and the wiring that the image shows. -/
structure Shows (image : Array UInt8) (c : Cartridge) : Prop where
  trainer : c.trainer = if bitAt image 6 2 then some (image.extract 16 528) else none
  prg : c.prg =
    image.extract (declaredPrgStart image) (declaredPrgStart image + declaredPrgSize image)
  chr : c.chr =
    image.extract (declaredChrStart image) (declaredChrStart image + declaredChrSize image)
  kind : c.kind.number.toNat = declaredMapper image
  mirroring : c.mirroring = declaredMirroring image
  battery : c.battery = bitAt image 6 1

/-- The checks in order, each with whether it fails and what is then reported. -/
def checks (image : Array UInt8) : List (Bool × FormatError) :=
  [(image.size < 16, .tooShort image.size),
    (image.toList.take 4 ≠ [0x4E, 0x45, 0x53, 0x1A], .badMagic (image.toList.take 4)),
    (byteAt image 4 = 0, .noPrgRom),
    (bitAt image 6 2 ∧ image.size < 16 + 512, .truncated .trainer 512 (image.size - 16)),
    (image.size < declaredPrgStart image + declaredPrgSize image,
      .truncated .prgRom (declaredPrgSize image) (image.size - declaredPrgStart image)),
    (image.size < declaredChrStart image + declaredChrSize image,
      .truncated .chrRom (declaredChrSize image) (image.size - declaredChrStart image)),
    (declaredMapper image ∉ [0, 1, 2, 3, 4, 7],
      .unsupportedMapper (declaredMapper image).toUInt8)]

def firstFault? (image : Array UInt8) : Option FormatError :=
  ((checks image).find? Prod.fst).map Prod.snd

/-! ### Reading the header -/

variable {image : Array UInt8}

theorem byteAt_eq {i : Nat} (h : i < image.size) : byteAt image i = image[i].toNat := by
  simp [byteAt, h]

theorem bitAt_eq {i k : Nat} (mask : UInt8) (h : i < image.size) (hMask : mask.toNat = 2 ^ k) :
    bitAt image i k = anyBit image[i] mask := by
  rw [bitAt, byteAt_eq h, anyBit_testBit hMask]

theorem byteAt_beq_zero {i : Nat} (h : i < image.size) :
    (byteAt image i == 0) = (image[i] == 0) := by
  rw [byteAt_eq h, Bool.eq_iff_iff, beq_iff_eq, beq_iff_eq]
  exact UInt8.toNat_inj (b := 0)

theorem take_four (h : 4 ≤ image.size) :
    image.toList.take 4 = [image[0], image[1], image[2], image[3]] := by
  obtain ⟨bytes⟩ := image
  match bytes, h with
  | _ :: _ :: _ :: _ :: _, _ => rfl

/-- The header declares what the image shows by offsets and bits. -/
structure Header.Declares (header : Header) (image : Array UInt8) : Prop where
  prgSize : header.prgSize = declaredPrgSize image
  chrSize : header.chrSize = declaredChrSize image
  mapper : header.mapperNumber.toNat = declaredMapper image
  mirroring : header.mirroring = declaredMirroring image
  battery : header.battery = bitAt image 6 1
  trainer : header.trainer = bitAt image 6 2

theorem mapperNumber_toNat (h6 : 6 < image.size) (h7 : 7 < image.size) (h12 : 12 < image.size)
    (h13 : 13 < image.size) (h14 : 14 < image.size) (h15 : 15 < image.size) :
    (mapperNumberOfFlags image[6] image[7]
      (image[12] == 0 && image[13] == 0 && image[14] == 0 && image[15] == 0)).toNat =
        declaredMapper image := by
  have hJunk : archaic image = (!anyBit image[7] 0x0C &&
      !(image[12] == 0 && image[13] == 0 && image[14] == 0 && image[15] == 0)) := by
    have hMask : anyBit image[7] 0x0C = (bitAt image 7 2 || bitAt image 7 3) := by
      rw [bitAt_eq 0x04 h7 rfl, bitAt_eq 0x08 h7 rfl, ← anyBit_or_mask]
      rfl
    simp only [archaic, hMask, List.any_cons, List.any_nil, Bool.or_false, bne,
      byteAt_beq_zero h12, byteAt_beq_zero h13, byteAt_beq_zero h14, byteAt_beq_zero h15,
      Bool.not_and, Bool.not_or]
    ac_rfl
  rw [mapperNumberOfFlags, declaredMapper, ← hJunk, byteAt_eq h6, byteAt_eq h7]
  split
  · rw [UInt8.toNat_shiftRight]
    exact Nat.shiftRight_eq_div_pow _ 4
  · exact toNat_halves _ _

theorem read_tooShort (h : image.size < 16) :
    Header.read image = .error (.tooShort image.size) := by
  rw [Header.read, dif_pos (c := image.size < headerSize) h]

theorem read_badMagic (h : 16 ≤ image.size)
    (hMagic : image.toList.take 4 ≠ [0x4E, 0x45, 0x53, 0x1A]) :
    Header.read image = .error (.badMagic (image.toList.take 4)) := by
  rw [take_four (by omega)] at hMagic ⊢
  rw [Header.read, dif_neg (c := image.size < headerSize) (Nat.not_lt.2 h)]
  exact if_pos hMagic

theorem read_noPrgRom (h : 16 ≤ image.size)
    (hMagic : image.toList.take 4 = [0x4E, 0x45, 0x53, 0x1A]) (hPrg : byteAt image 4 = 0) :
    Header.read image = .error .noPrgRom := by
  rw [take_four (by omega)] at hMagic
  rw [byteAt_eq (by omega)] at hPrg
  rw [Header.read, dif_neg (c := image.size < headerSize) (Nat.not_lt.2 h)]
  exact (if_neg (not_not_intro hMagic)).trans (dif_pos hPrg)

theorem read_ok (h : 16 ≤ image.size)
    (hMagic : image.toList.take 4 = [0x4E, 0x45, 0x53, 0x1A]) (hPrg : byteAt image 4 ≠ 0) :
    ∃ header, Header.read image = .ok header ∧ header.Declares image := by
  rw [take_four (by omega)] at hMagic
  have hBanks : byteAt image 4 = image[4].toNat := byteAt_eq (by omega)
  rw [hBanks] at hPrg
  rw [Header.read, dif_neg (c := image.size < headerSize) (Nat.not_lt.2 h)]
  refine ⟨_, (if_neg (not_not_intro hMagic)).trans (dif_neg hPrg), ?_⟩
  refine ⟨?_, ?_, mapperNumber_toNat (by omega) (by omega) (by omega) (by omega) (by omega)
    (by omega), ?_, ?_, ?_⟩
  · rw [Header.prgSize, declaredPrgSize, hBanks, Nat.mul_comm]
    rfl
  · rw [Header.chrSize, declaredChrSize, byteAt_eq (show 5 < image.size by omega), Nat.mul_comm]
    rfl
  · rw [declaredMirroring, bitAt_eq 0x08 (by omega) rfl,
      bitAt_eq 0x01 (by omega) rfl]
    rfl
  · exact (bitAt_eq 0x02 (by omega) rfl).symm
  · exact (bitAt_eq 0x04 (by omega) rfl).symm

/-! ### Cutting the sections -/

theorem cut_ok (block : ImageSection) {start size : Nat} (h : start + size ≤ image.size) :
    ∃ v : Vector UInt8 size, cut image block start size = .ok v ∧
      v.toArray = image.extract start (start + size) := by
  rw [cut, dif_pos h]
  exact ⟨_, rfl, rfl⟩

theorem cut_truncated (block : ImageSection) {start size : Nat}
    (h : image.size < start + size) :
    cut image block start size = .error (.truncated block size (image.size - start)) := by
  rw [cut, dif_neg (Nat.not_le.2 h)]

theorem Header.Declares.prgStart {header : Header} (h : header.Declares image) :
    header.prgStart = declaredPrgStart image := by
  rw [Header.prgStart, declaredPrgStart, h.trainer]
  rfl

theorem Header.Declares.cutTrainer_ok {header : Header} (h : header.Declares image)
    (hWhole : ¬(bitAt image 6 2 = true ∧ image.size < 16 + 512)) :
    cutTrainer image header =
      .ok (if bitAt image 6 2 then some (image.extract 16 528) else none) := by
  rw [cutTrainer, h.trainer]
  by_cases hBit : bitAt image 6 2 = true
  · have hSize : headerSize + trainerSize ≤ image.size :=
      Nat.not_lt.1 fun hShort => hWhole ⟨hBit, hShort⟩
    obtain ⟨v, hCut, hValue⟩ := cut_ok .trainer hSize
    rw [if_pos hBit, if_pos hBit, hCut, ← show v.toArray = image.extract 16 528 from hValue]
  · rw [if_neg hBit, if_neg hBit]

theorem Header.Declares.cutTrainer_truncated {header : Header} (h : header.Declares image)
    (hBit : bitAt image 6 2 = true) (hShort : image.size < 16 + 512) :
    cutTrainer image header = .error (.truncated .trainer 512 (image.size - 16)) := by
  rw [cutTrainer, h.trainer, if_pos hBit,
    cut_truncated .trainer (show image.size < headerSize + trainerSize from hShort)]
  rfl

/-! ### Mapper numbers -/

theorem number_of_ofNumber? {n : UInt8} {kind : Mapper.Kind}
    (h : Mapper.Kind.ofNumber? n = some kind) : kind.number = n := by
  simpa using List.find?_some h

theorem ofNumber?_eq_none_iff (n : UInt8) :
    Mapper.Kind.ofNumber? n = none ↔ n.toNat ∉ [0, 1, 2, 3, 4, 7] := by
  constructor
  · intro hNone hKnown
    have hNumber (kind : Mapper.Kind) (hKind : kind.number = n) : False := by
      rw [← hKind, Mapper.Kind.ofNumber?_number] at hNone
      cases hNone
    simp only [List.mem_cons, List.not_mem_nil, or_false] at hKnown
    rcases hKnown with h | h | h | h | h | h
    · exact hNumber .nrom (UInt8.toNat_inj.1 h.symm)
    · exact hNumber .mmc1 (UInt8.toNat_inj.1 h.symm)
    · exact hNumber .uxrom (UInt8.toNat_inj.1 h.symm)
    · exact hNumber .cnrom (UInt8.toNat_inj.1 h.symm)
    · exact hNumber .mmc3 (UInt8.toNat_inj.1 h.symm)
    · exact hNumber .axrom (UInt8.toNat_inj.1 h.symm)
  · intro hUnknown
    cases hFound : Mapper.Kind.ofNumber? n with
    | none => rfl
    | some kind =>
      rw [← number_of_ofNumber? hFound] at hUnknown
      cases kind <;> exact absurd hUnknown (by decide)

/-! ### Reading an image -/

theorem ofImage_of_read_error {e : FormatError} (h : Header.read image = .error e) :
    ofImage image = .error e := by
  rw [ofImage, h]
  rfl

theorem ofImage_of_sections {header : Header} (hRead : Header.read image = .ok header)
    (h : header.Declares image) {trainer : Option (Array UInt8)}
    {prg : Vector UInt8 header.prgSize} {chr : Vector UInt8 header.chrSize}
    (hTrainer : cutTrainer image header = .ok trainer)
    (hPrg : cut image .prgRom header.prgStart header.prgSize = .ok prg)
    (hChr : cut image .chrRom (header.prgStart + header.prgSize) header.chrSize = .ok chr) :
    if declaredMapper image ∈ [0, 1, 2, 3, 4, 7] then
      ∃ c, ofImage image = .ok c ∧ c.trainer = trainer ∧ c.prg = prg.toArray ∧
        c.chr = chr.toArray ∧ c.kind.number.toNat = declaredMapper image ∧
        c.mirroring = declaredMirroring image ∧ c.battery = bitAt image 6 1
    else ofImage image = .error (.unsupportedMapper (declaredMapper image).toUInt8) := by
  have hNumber := ofNumber?_eq_none_iff header.mapperNumber
  rw [h.mapper] at hNumber
  cases hKind : Mapper.Kind.ofNumber? header.mapperNumber with
  | none =>
    rw [if_neg (hNumber.1 hKind)]
    simp only [ofImage, hRead, hTrainer, hPrg, hChr, hKind, bind, Except.bind]
    rw [← h.mapper, Nat.toUInt8_eq, UInt8.ofNat_toNat]
  | some kind =>
    have hKnown : declaredMapper image ∈ [0, 1, 2, 3, 4, 7] := by
      refine Decidable.of_not_not ?_
      intro hUnknown
      rw [hNumber.2 hUnknown] at hKind
      cases hKind
    rw [if_pos hKnown]
    simp only [ofImage, hRead, hTrainer, hPrg, hChr, hKind, bind, Except.bind]
    refine ⟨_, rfl, rfl, rfl, rfl, ?_, h.mirroring, h.battery⟩
    rw [number_of_ofNumber? hKind, h.mapper]

/-- An image whose header can be read either has a first failing check, which is reported, or is
that of a cartridge. -/
theorem ofImage_of_declares {header : Header} (hRead : Header.read image = .ok header)
    (h : header.Declares image) (hHeader : 16 ≤ image.size)
    (hMagic : image.toList.take 4 = [0x4E, 0x45, 0x53, 0x1A]) (hPrg : byteAt image 4 ≠ 0) :
    (∃ e, firstFault? image = some e ∧ ofImage image = .error e) ∨
      (Fits image ∧ ∃ c, ofImage image = .ok c ∧ Shows image c) := by
  have hLong : ¬image.size < 16 := Nat.not_lt.2 hHeader
  have hChrStart : header.prgStart + header.prgSize = declaredChrStart image := by
    rw [h.prgStart, h.prgSize, declaredChrStart]
  -- The sections in order: the first that is short ends the reading.
  by_cases hTrainer : bitAt image 6 2 = true ∧ image.size < 16 + 512
  · refine .inl ⟨.truncated .trainer 512 (image.size - 16), ?_, ?_⟩
    · simp [firstFault?, checks, hLong, hMagic, hPrg, hTrainer]
    · simp only [ofImage, hRead, h.cutTrainer_truncated hTrainer.1 hTrainer.2, bind, Except.bind]
  have hTrainerOk := h.cutTrainer_ok hTrainer
  by_cases hPrgShort : image.size < declaredPrgStart image + declaredPrgSize image
  · have hCut := cut_truncated .prgRom (h.prgStart ▸ h.prgSize ▸ hPrgShort)
    refine .inl ⟨.truncated .prgRom (declaredPrgSize image) (image.size - declaredPrgStart image),
      ?_, ?_⟩
    · simp [firstFault?, checks, hLong, hMagic, hPrg, hTrainer, hPrgShort]
    · simp only [ofImage, hRead, hTrainerOk, hCut, bind, Except.bind]
      rw [h.prgSize, h.prgStart]
  obtain ⟨prg, hPrgOk, hPrgValue⟩ :=
    cut_ok .prgRom (Nat.not_lt.1 (h.prgStart ▸ h.prgSize ▸ hPrgShort))
  by_cases hChrShort : image.size < declaredChrStart image + declaredChrSize image
  · have hCut := cut_truncated .chrRom (hChrStart ▸ h.chrSize ▸ hChrShort)
    refine .inl ⟨.truncated .chrRom (declaredChrSize image) (image.size - declaredChrStart image),
      ?_, ?_⟩
    · simp [firstFault?, checks, hLong, hMagic, hPrg, hTrainer, hPrgShort, hChrShort]
    · simp only [ofImage, hRead, hTrainerOk, hPrgOk, hCut, bind, Except.bind]
      rw [h.chrSize, hChrStart]
  obtain ⟨chr, hChrOk, hChrValue⟩ :=
    cut_ok .chrRom (Nat.not_lt.1 (hChrStart ▸ h.chrSize ▸ hChrShort))
  -- All sections are there, and the mapper number is looked at last.
  have hLast := ofImage_of_sections hRead h hTrainerOk hPrgOk hChrOk
  split at hLast
  · rename_i hKnown
    obtain ⟨c, hOk, hT, hP, hC, hKind, hMirroring, hBattery⟩ := hLast
    refine .inr ⟨⟨hHeader, hMagic, hPrg, hKnown, Nat.not_lt.1 hChrShort⟩, c, hOk, ?_⟩
    refine ⟨hT, ?_, ?_, hKind, hMirroring, hBattery⟩
    · rw [hP, hPrgValue, h.prgStart, h.prgSize]
    · rw [hC, hChrValue, hChrStart, h.chrSize]
  · rename_i hUnknown
    refine .inl ⟨_, ?_, hLast⟩
    simp only [firstFault?, checks, hLong, hMagic, hPrg, hTrainer, hPrgShort, hChrShort, hUnknown]
    rfl

theorem ofImage_cases (image : Array UInt8) :
    (∃ e, firstFault? image = some e ∧ ofImage image = .error e) ∨
      (Fits image ∧ ∃ c, ofImage image = .ok c ∧ Shows image c) := by
  by_cases hShort : image.size < 16
  · refine .inl ⟨_, ?_, ofImage_of_read_error (read_tooShort hShort)⟩
    simp [firstFault?, checks, hShort]
  have hHeader := Nat.not_lt.1 hShort
  by_cases hMagic : image.toList.take 4 = [0x4E, 0x45, 0x53, 0x1A]
  · by_cases hPrg : byteAt image 4 = 0
    · refine .inl ⟨_, ?_, ofImage_of_read_error (read_noPrgRom hHeader hMagic hPrg)⟩
      simp [firstFault?, checks, hShort, hMagic, hPrg]
    · obtain ⟨header, hRead, hDeclares⟩ := read_ok hHeader hMagic hPrg
      exact ofImage_of_declares hRead hDeclares hHeader hMagic hPrg
  · refine .inl ⟨_, ?_, ofImage_of_read_error (read_badMagic hHeader hMagic)⟩
    simp [firstFault?, checks, hShort, hMagic]

theorem Fits.firstFault? (h : Fits image) : firstFault? image = none := by
  have hTrainer : ¬(bitAt image 6 2 = true ∧ image.size < 16 + 512) := by
    rintro ⟨hBit, hSize⟩
    have hWhole := h.whole
    rw [if_pos hBit] at hWhole
    omega
  have hChr : ¬image.size < declaredChrStart image + declaredChrSize image :=
    Nat.not_lt.2 h.whole
  have hPrg : ¬image.size < declaredPrgStart image + declaredPrgSize image :=
    fun hSize => hChr (Nat.lt_of_lt_of_le hSize (Nat.le_add_right _ _))
  have hMapper : ¬declaredMapper image ∉ [0, 1, 2, 3, 4, 7] := not_not_intro h.mapper
  simp only [Cartridge.firstFault?, checks, Nat.not_lt.2 h.header, h.magic, h.prg, hTrainer, hPrg,
    hChr, hMapper]
  rfl

theorem Shows.unique {c c' : Cartridge} (h : Shows image c) (h' : Shows image c') : c = c' := by
  have hKind : c.kind = c'.kind := by
    have hNumber : c.kind.number = c'.kind.number := UInt8.toNat_inj.1 (h.kind.trans h'.kind.symm)
    apply Option.some.inj
    rw [← Mapper.Kind.ofNumber?_number, ← Mapper.Kind.ofNumber?_number, hNumber]
  have hPrg := h.prg.trans h'.prg.symm
  have hChr := h.chr.trans h'.chr.symm
  have hMirroring := h.mirroring.trans h'.mirroring.symm
  have hBattery := h.battery.trans h'.battery.symm
  have hTrainer := h.trainer.trans h'.trainer.symm
  cases c
  cases c'
  simp only at hPrg hChr hKind hMirroring hBattery hTrainer
  subst hPrg hChr hKind hMirroring hBattery hTrainer
  rfl

theorem ofImage_eq_ok_iff (image : Array UInt8) (c : Cartridge) :
    ofImage image = .ok c ↔ Fits image ∧ Shows image c := by
  rcases ofImage_cases image with ⟨e, hFault, hError⟩ | ⟨hFits, found, hOk, hShows⟩
  · refine iff_of_false ?_ ?_
    · rw [hError]
      nofun
    · rintro ⟨hFits, -⟩
      rw [hFits.firstFault?] at hFault
      cases hFault
  · rw [hOk]
    constructor
    · intro hSame
      cases hSame
      exact ⟨hFits, hShows⟩
    · rintro ⟨-, hShows'⟩
      rw [hShows.unique hShows']

theorem ofImage_eq_error_iff (image : Array UInt8) (e : FormatError) :
    ofImage image = .error e ↔ firstFault? image = some e := by
  rcases ofImage_cases image with ⟨fault, hFault, hError⟩ | ⟨hFits, found, hOk, -⟩
  · rw [hFault, hError, Except.error.injEq, Option.some.injEq]
  · rw [hFits.firstFault?, hOk]
    exact iff_of_false nofun nofun

/-! ### Writing a cartridge down -/

def sixthByte (c : Cartridge) : Nat :=
  16 * (c.kind.number.toNat % 16) + 8 * (decide (c.mirroring = .fourScreen)).toNat +
    4 * c.trainer.isSome.toNat + 2 * c.battery.toNat +
    (decide (c.mirroring = .vertical)).toNat

/-- The header of a cartridge, unused bytes left zero. -/
def headerBytes (c : Cartridge) : Array UInt8 :=
  #[0x4E, 0x45, 0x53, 0x1A, (c.prg.size / 16384).toUInt8, (c.chr.size / 8192).toUInt8,
    c.sixthByte.toUInt8, (16 * (c.kind.number.toNat / 16)).toUInt8, 0, 0, 0, 0, 0, 0, 0, 0]

def toImage (c : Cartridge) : Array UInt8 :=
  c.headerBytes ++ c.trainer.getD #[] ++ c.prg ++ c.chr

/-- The cartridge has an image: its memories are whole banks whose numbers fit into a byte, its
trainer has the usual size and its mirroring is one that a header can name. -/
structure Storable (c : Cartridge) (prgBanks chrBanks : Nat) : Prop where
  prg : c.prg.size = 16384 * prgBanks
  prgBanks_le : prgBanks ≤ 255
  chr : c.chr.size = 8192 * chrBanks
  chrBanks_le : chrBanks ≤ 255
  trainer : ∀ t, c.trainer = some t → t.size = 512
  mirroring : c.mirroring ∈ [.horizontal, .vertical, .fourScreen]

theorem extract_of_size {before block after : Array UInt8} {start stop : Nat}
    (hStart : start = before.size) (hStop : stop = before.size + block.size) :
    (before ++ block ++ after).extract start stop = block := by
  subst hStart hStop
  simp [Array.extract_append]

theorem byteAt_append {bytes rest : Array UInt8} {i : Nat} (h : i < bytes.size) :
    byteAt (bytes ++ rest) i = byteAt bytes i := by
  simp [byteAt, Array.getElem?_append_left h]

section

variable {c : Cartridge} {prgBanks chrBanks : Nat} {rest : Array UInt8}

theorem toImage_append (c : Cartridge) (rest : Array UInt8) :
    c.toImage ++ rest = c.headerBytes ++ (c.trainer.getD #[] ++ (c.prg ++ (c.chr ++ rest))) := by
  simp only [toImage, Array.append_assoc]

theorem byteAt_toImage {i : Nat} (h : i < 16) :
    byteAt (c.toImage ++ rest) i = byteAt c.headerBytes i := by
  rw [toImage_append]
  exact byteAt_append h

theorem Storable.byte_four (h : c.Storable prgBanks chrBanks) :
    byteAt (c.toImage ++ rest) 4 = prgBanks := by
  have hBanks := h.prgBanks_le
  rw [byteAt_toImage (by decide)]
  show ((c.prg.size / 16384).toUInt8).toNat = prgBanks
  rw [h.prg, Nat.toUInt8_eq, UInt8.toNat_ofNat']
  omega

theorem Storable.byte_five (h : c.Storable prgBanks chrBanks) :
    byteAt (c.toImage ++ rest) 5 = chrBanks := by
  have hBanks := h.chrBanks_le
  rw [byteAt_toImage (by decide)]
  show ((c.chr.size / 8192).toUInt8).toNat = chrBanks
  rw [h.chr, Nat.toUInt8_eq, UInt8.toNat_ofNat']
  omega

theorem sixthByte_fields (c : Cartridge) :
    c.sixthByte < 256 ∧ c.sixthByte / 16 = c.kind.number.toNat % 16 ∧
      c.sixthByte / 2 ^ 0 % 2 = (decide (c.mirroring = .vertical)).toNat ∧
      c.sixthByte / 2 ^ 1 % 2 = c.battery.toNat ∧
      c.sixthByte / 2 ^ 2 % 2 = c.trainer.isSome.toNat ∧
      c.sixthByte / 2 ^ 3 % 2 = (decide (c.mirroring = .fourScreen)).toNat := by
  have hFour := Bool.toNat_le (decide (c.mirroring = .fourScreen))
  have hTrainer := Bool.toNat_le c.trainer.isSome
  have hBattery := Bool.toNat_le c.battery
  have hVertical := Bool.toNat_le (decide (c.mirroring = .vertical))
  rw [sixthByte]
  omega

theorem byte_six (c : Cartridge) (rest : Array UInt8) :
    byteAt (c.toImage ++ rest) 6 = c.sixthByte := by
  rw [byteAt_toImage (by decide)]
  show (c.sixthByte.toUInt8).toNat = c.sixthByte
  rw [Nat.toUInt8_eq, UInt8.toNat_ofNat', Nat.mod_eq_of_lt c.sixthByte_fields.1]

theorem bits_six (c : Cartridge) (rest : Array UInt8) :
    bitAt (c.toImage ++ rest) 6 0 = decide (c.mirroring = .vertical) ∧
      bitAt (c.toImage ++ rest) 6 1 = c.battery ∧
      bitAt (c.toImage ++ rest) 6 2 = c.trainer.isSome ∧
      bitAt (c.toImage ++ rest) 6 3 = decide (c.mirroring = .fourScreen) := by
  have hBit (k : Nat) (b : Bool) (h : c.sixthByte / 2 ^ k % 2 = b.toNat) :
      bitAt (c.toImage ++ rest) 6 k = b := by
    rw [bitAt, byte_six, Nat.testBit_eq_decide_div_mod_eq, h]
    cases b <;> rfl
  obtain ⟨-, -, hVertical, hBattery, hTrainer, hFour⟩ := c.sixthByte_fields
  exact ⟨hBit 0 _ hVertical, hBit 1 _ hBattery, hBit 2 _ hTrainer, hBit 3 _ hFour⟩

theorem declaredMapper_toImage (c : Cartridge) (rest : Array UInt8) :
    declaredMapper (c.toImage ++ rest) = c.kind.number.toNat := by
  have hNumber := c.kind.number.toNat_lt
  have hZero (i : Nat) (hi : i < 16) (h : byteAt c.headerBytes i = 0) :
      (byteAt (c.toImage ++ rest) i != 0) = false := by
    rw [byteAt_toImage hi, h]
    rfl
  have hClean : archaic (c.toImage ++ rest) = false := by
    simp only [archaic, List.any_cons, List.any_nil, hZero 12 (by decide) rfl,
      hZero 13 (by decide) rfl, hZero 14 (by decide) rfl, hZero 15 (by decide) rfl,
      Bool.or_false, Bool.and_false]
  have hSeven : byteAt (c.toImage ++ rest) 7 = 16 * (c.kind.number.toNat / 16) := by
    rw [byteAt_toImage (by decide)]
    show ((16 * (c.kind.number.toNat / 16)).toUInt8).toNat = _
    rw [Nat.toUInt8_eq, UInt8.toNat_ofNat']
    omega
  rw [declaredMapper, hClean, byte_six, hSeven, c.sixthByte_fields.2.1,
    if_neg Bool.false_ne_true]
  omega

theorem Storable.prgStart (h : c.Storable prgBanks chrBanks) :
    declaredPrgStart (c.toImage ++ rest) = (c.headerBytes ++ c.trainer.getD #[]).size := by
  rw [declaredPrgStart, (bits_six c rest).2.2.1, Array.size_append]
  cases hTrainer : c.trainer with
  | none => rfl
  | some t =>
    rw [Option.getD_some, h.trainer t hTrainer]
    rfl

theorem Storable.shows (h : c.Storable prgBanks chrBanks) :
    Shows (c.toImage ++ rest) c := by
  obtain ⟨hVertical, hBattery, hTrainer, hFour⟩ := bits_six c rest
  have hPrgSize : declaredPrgSize (c.toImage ++ rest) = c.prg.size := by
    rw [declaredPrgSize, h.byte_four, h.prg]
  have hChrSize : declaredChrSize (c.toImage ++ rest) = c.chr.size := by
    rw [declaredChrSize, h.byte_five, h.chr]
  have hChrStart : declaredChrStart (c.toImage ++ rest) =
      (c.headerBytes ++ c.trainer.getD #[] ++ c.prg).size := by
    rw [declaredChrStart, h.prgStart, hPrgSize, show (_ ++ c.prg).size = _ from Array.size_append]
  refine ⟨?_, ?_, ?_, (declaredMapper_toImage c rest).symm, ?_, hBattery.symm⟩
  · rw [hTrainer]
    cases hBlock : c.trainer with
    | none => rfl
    | some t =>
      have hSize := h.trainer t hBlock
      rw [Option.isSome_some, if_pos rfl, toImage_append, hBlock, Option.getD_some,
        ← Array.append_assoc]
      refine congrArg some (extract_of_size ?_ ?_).symm
      · rfl
      · rw [hSize]
        rfl
  · have hSplit : c.toImage ++ rest =
        c.headerBytes ++ c.trainer.getD #[] ++ c.prg ++ (c.chr ++ rest) := by
      simp only [toImage, Array.append_assoc]
    rw [hPrgSize, h.prgStart, hSplit]
    exact (extract_of_size rfl rfl).symm
  · rw [hChrSize, hChrStart, toImage]
    exact (extract_of_size rfl rfl).symm
  · rw [declaredMirroring, hVertical, hFour]
    have hNamed := h.mirroring
    simp only [List.mem_cons, List.not_mem_nil, or_false] at hNamed
    rcases hNamed with hM | hM | hM <;> rw [hM] <;> rfl

theorem Storable.fits (h : c.Storable prgBanks chrBanks) : Fits (c.toImage ++ rest) := by
  have hStart : (16 + if bitAt (c.toImage ++ rest) 6 2 then 512 else 0) =
      (c.headerBytes ++ c.trainer.getD #[]).size := h.prgStart
  have hSize : (c.toImage ++ rest).size =
      (c.headerBytes ++ c.trainer.getD #[]).size + c.prg.size + c.chr.size + rest.size := by
    simp only [toImage, Array.size_append]
  have hHeader : 16 ≤ (c.headerBytes ++ c.trainer.getD #[]).size := by
    rw [Array.size_append]
    exact Nat.le_add_right 16 _
  have hPos := c.prg_pos
  have hPrg := h.prg
  have hChr := h.chr
  refine ⟨by omega, ?_, ?_, ?_, ?_⟩
  · rw [toImage_append, Array.toList_append]
    rfl
  · rw [h.byte_four]
    omega
  · rw [declaredMapper_toImage]
    cases c.kind <;> decide
  · rw [hStart, h.byte_four, h.byte_five]
    omega

end

/-- Images are read exactly by the format.  An image is accepted when it fits, and the cartridge
is then the one that it shows; any other image is refused with the first failing check.  Hence
every cartridge that can be written down is read back from its image, whatever follows. -/
theorem ofImage_reads_format :
    (∀ image c, ofImage image = .ok c ↔ Fits image ∧ Shows image c) ∧
      (∀ image e, ofImage image = .error e ↔ firstFault? image = some e) ∧
      (∀ (c : Cartridge) (prgBanks chrBanks : Nat) (rest : Array UInt8),
        c.Storable prgBanks chrBanks → ofImage (c.toImage ++ rest) = .ok c) := by
  refine ⟨ofImage_eq_ok_iff, ofImage_eq_error_iff, ?_⟩
  intro c prgBanks chrBanks rest h
  exact (ofImage_eq_ok_iff _ c).2 ⟨h.fits, h.shows⟩

/-- One program bank, no pattern bank and a trainer, with a byte behind the image. -/
theorem ofImage_reads_format_small :
    let c : Cartridge := ⟨Array.replicate 16384 0xAA, #[], .axrom, .fourScreen, true,
      some (Array.replicate 512 0xEE), by rw [Array.size_replicate]; decide⟩
    c.Storable 1 0 ∧ ofImage (c.toImage ++ #[0xFF]) = .ok c := by
  intro c
  have hStorable : c.Storable 1 0 := {
    prg := Array.size_replicate
    prgBanks_le := by decide
    chr := rfl
    chrBanks_le := by decide
    trainer := by
      intro t ht
      obtain rfl : Array.replicate 512 0xEE = t := Option.some.inj ht
      exact Array.size_replicate
    mirroring := by decide }
  exact ⟨hStorable, ofImage_reads_format.2.2 c 1 0 #[0xFF] hStorable⟩

end Famicom.Cartridge
