import HailOS.Console.KernelConsole
import HailOS.Lib.TextGrid

/-!
# The screen is the rendering of the text

The console is compared with a pure layout of the characters since the last clear, on a grid of
cells of 8 by 16 pixels. `screen_renders_text` says that after any calls every pixel of the screen
has the color that the layout gives it, that the console writes inside the frame buffer only, that
every glyph is drawn whole, and that no pixel is drawn twice between two clears.
-/

namespace HailOS.Console

open Lib Kernel

/-! ## The pure rendering -/

/-- What a character does to the layout. -/
def charKind (ch : BitVec 8) : CharKind :=
  if isVisibleChar ch then .glyph else if ch = newline then .newLine else .ignored

/-- The number of whole columns of glyphs. -/
def GraphicInfo.cols (info : GraphicInfo) : Nat := info.horizontalResolution.toNat / 8

/-- The number of whole rows of glyphs. -/
def GraphicInfo.rows (info : GraphicInfo) : Nat := info.verticalResolution.toNat / 16

/-- The text since the last clear, after a call. -/
def ConsoleOp.output (info : GraphicInfo) (text : List (BitVec 8)) : ConsoleOp → List (BitVec 8)
  | .putChar ch => Lib.output charKind info.rows info.cols text ch
  | .putString str =>
      (str.takeWhile (· ≠ 0)).foldl (Lib.output charKind info.rows info.cols) text
  | .flush => Lib.output charKind info.rows info.cols text newline
  | .reset => []

/-- The glyph of a character has ink at a pixel of its cell. A space has none. -/
def hasInk (font : Font) (ch : BitVec 8) (x y : Nat) : Bool :=
  ch != space && (font ch.toNat (y % 16)).getMsbD (x % 8)

/-- The color of a pixel where the glyphs `placed` are. -/
def rendered (font : Font) (placed : List (BitVec 8 × Position)) (x y : Nat) :
    FrameBufferColor :=
  if placed.any (fun g => g.2 == ⟨y / 16, x / 8⟩ && hasInk font g.1 x y) then colorForeground
  else colorBackground

/-- The pixels of a cell, as the glyph is drawn: by lines, and left to right. -/
def cellPixels (p : Position) : List (Nat × Nat) :=
  (List.range 16).flatMap fun i => (List.range 8).map fun k => (8 * p.col + k, 16 * p.row + i)

/-- The cells that have a glyph to be drawn, in their order. -/
def drawnCells (placed : List (BitVec 8 × Position)) : List Position :=
  (placed.filter fun g => g.1 != space).map Prod.snd

/-! ## The frame buffer -/

/-- What the console relies on. -/
structure GraphicInfo.Valid (info : GraphicInfo) : Prop where
  width : 8 ≤ info.horizontalResolution.toNat
  height : 16 ≤ info.verticalResolution.toNat
  scanLine : info.horizontalResolution.toNat ≤ info.pixelsPerScanLine.toNat
  pixels : info.pixelsPerScanLine.toNat * info.verticalResolution.toNat < 2 ^ 32
  size : 4 * info.pixelsPerScanLine.toNat * info.verticalResolution.toNat ≤ info.frameBufferSize

/-- The address of a pixel. -/
def pixelAddress (info : GraphicInfo) (q : Nat × Nat) : Nat :=
  info.frameBufferBase + 4 * (q.2 * info.pixelsPerScanLine.toNat + q.1)

/-- The color of the pixel at an address. -/
def colorAt (memory : Memory) (p : Nat) : FrameBufferColor :=
  ⟨memory p, memory (p + 1), memory (p + 2), memory (p + 3)⟩

/-- The pixel is on the screen. -/
def GraphicInfo.OnScreen (info : GraphicInfo) (q : Nat × Nat) : Prop :=
  q.1 < info.horizontalResolution.toNat ∧ q.2 < info.verticalResolution.toNat

/-- The write lies inside the frame buffer. -/
def Access.Inside (info : GraphicInfo) : Access → Prop
  | .fill address size =>
      info.frameBufferBase ≤ address ∧
        address + size ≤ info.frameBufferBase + info.frameBufferSize
  | .pixel address =>
      info.frameBufferBase ≤ address ∧
        address + 4 ≤ info.frameBufferBase + info.frameBufferSize

/-- The addresses of the pixels drawn since the last clear, the latest first. -/
def sinceFill : List Access → List Nat
  | .pixel address :: past => address :: sinceFill past
  | _ => []

/-- The addresses of the pixels of a cell. -/
def cellAddresses (info : GraphicInfo) (p : Position) : List Nat :=
  (cellPixels p).map (pixelAddress info)

/-- Every pixel is one of the cell that it lies in. -/
theorem mem_cellPixels {p : Position} {q : Nat × Nat} :
    q ∈ cellPixels p ↔ p = ⟨q.2 / 16, q.1 / 8⟩ := by
  obtain ⟨row, col⟩ := p
  obtain ⟨x, y⟩ := q
  simp only [cellPixels, List.mem_flatMap, List.mem_map, List.mem_range, Prod.mk.injEq,
    Position.mk.injEq]
  constructor
  · rintro ⟨i, hi, k, hk, rfl, rfl⟩
    omega
  · rintro ⟨hy, hx⟩
    exact ⟨y % 16, Nat.mod_lt _ (by norm_num), x % 8, Nat.mod_lt _ (by norm_num),
      by omega, by omega⟩

section Pixels

variable {info : GraphicInfo}

/-- The pixels of a cell of the grid are on the screen. -/
theorem cell_onScreen {p : Position} (hrow : p.row < info.rows) (hcol : p.col < info.cols)
    {q : Nat × Nat} (hq : q ∈ cellPixels p) : info.OnScreen q := by
  have hy : p.row = q.2 / 16 := congrArg Position.row (mem_cellPixels.1 hq)
  have hx : p.col = q.1 / 8 := congrArg Position.col (mem_cellPixels.1 hq)
  rw [GraphicInfo.rows] at hrow
  rw [GraphicInfo.cols] at hcol
  constructor <;> omega

/-- The index of a pixel on the screen is below the number of pixels of the frame buffer. -/
theorem pixel_index_lt (hinfo : info.Valid) {q : Nat × Nat} (hq : info.OnScreen q) :
    q.2 * info.pixelsPerScanLine.toNat + q.1 <
      info.pixelsPerScanLine.toNat * info.verticalResolution.toNat := by
  have hx : q.1 < info.pixelsPerScanLine.toNat := Nat.lt_of_lt_of_le hq.1 hinfo.scanLine
  calc q.2 * info.pixelsPerScanLine.toNat + q.1
      < q.2 * info.pixelsPerScanLine.toNat + info.pixelsPerScanLine.toNat :=
        Nat.add_lt_add_left hx _
    _ = info.pixelsPerScanLine.toNat * (q.2 + 1) := by rw [Nat.mul_succ, Nat.mul_comm]
    _ ≤ info.pixelsPerScanLine.toNat * info.verticalResolution.toNat :=
        Nat.mul_le_mul_left _ hq.2

/-- Different pixels on the screen have different addresses. -/
theorem pixelAddress_inj (hinfo : info.Valid) {q q' : Nat × Nat} (hq : info.OnScreen q)
    (hq' : info.OnScreen q') (h : pixelAddress info q = pixelAddress info q') : q = q' := by
  have hx : q.1 < info.pixelsPerScanLine.toNat := Nat.lt_of_lt_of_le hq.1 hinfo.scanLine
  have hx' : q'.1 < info.pixelsPerScanLine.toNat := Nat.lt_of_lt_of_le hq'.1 hinfo.scanLine
  have hpos : 0 < info.pixelsPerScanLine.toNat := Nat.zero_lt_of_lt hx
  have hindex : q.1 + info.pixelsPerScanLine.toNat * q.2 =
      q'.1 + info.pixelsPerScanLine.toNat * q'.2 := by
    rw [pixelAddress, pixelAddress, Nat.mul_comm q.2, Nat.mul_comm q'.2] at h
    omega
  refine Prod.ext ?_ ?_
  · have hmod := congrArg (· % info.pixelsPerScanLine.toNat) hindex
    simpa only [Nat.add_mul_mod_self_left, Nat.mod_eq_of_lt hx, Nat.mod_eq_of_lt hx'] using hmod
  · have hdiv := congrArg (· / info.pixelsPerScanLine.toNat) hindex
    simpa only [Nat.add_mul_div_left _ _ hpos, Nat.div_eq_of_lt hx, Nat.div_eq_of_lt hx',
      Nat.zero_add] using hdiv

/-- A pixel on the screen lies inside the frame buffer. -/
theorem pixel_inside (hinfo : info.Valid) {q : Nat × Nat} (hq : info.OnScreen q) :
    (Access.pixel (pixelAddress info q)).Inside info := by
  have hindex := pixel_index_lt hinfo hq
  have hsize := hinfo.size
  rw [Nat.mul_assoc] at hsize
  show info.frameBufferBase ≤ pixelAddress info q ∧ pixelAddress info q + 4 ≤ _
  rw [pixelAddress]
  omega

/-- `DrawPixel` stores the color of a pixel on the screen. -/
theorem drawPixel_eq (hinfo : info.Valid) {x y : Nat} (hq : info.OnScreen (x, y))
    (frame : FrameBuffer) (color : FrameBufferColor) :
    drawPixel info frame ⟨BitVec.ofNat 32 x, BitVec.ofNat 32 y⟩ color =
      frame.write (pixelAddress info (x, y)) color := by
  obtain ⟨hx, hy⟩ := hq
  have hindex := pixel_index_lt hinfo ⟨hx, hy⟩
  have hpixels := hinfo.pixels
  have hxword : (BitVec.ofNat 32 x).toNat = x :=
    Nat.mod_eq_of_lt (Nat.lt_trans hx info.horizontalResolution.isLt)
  have hyword : (BitVec.ofNat 32 y).toNat = y :=
    Nat.mod_eq_of_lt (Nat.lt_trans hy info.verticalResolution.isLt)
  have hvisible : ¬ (BitVec.ofNat 32 x ≥ info.horizontalResolution ∨
      BitVec.ofNat 32 y ≥ info.verticalResolution) := by
    rw [ge_iff_le, ge_iff_le, BitVec.le_def, BitVec.le_def, hxword, hyword]
    exact not_or.2 ⟨Nat.not_le.2 hx, Nat.not_le.2 hy⟩
  have hoffset : calcPixelOffset info ⟨BitVec.ofNat 32 x, BitVec.ofNat 32 y⟩ =
      4 * (y * info.pixelsPerScanLine.toNat + x) := by
    have hmul : y * info.pixelsPerScanLine.toNat < 2 ^ 32 :=
      Nat.lt_of_le_of_lt (Nat.le_add_right _ x) (Nat.lt_trans hindex hpixels)
    rw [calcPixelOffset, BitVec.toNat_add, BitVec.toNat_mul, hxword, hyword,
      Nat.mod_eq_of_lt hmul, Nat.mod_eq_of_lt (Nat.lt_trans hindex hpixels), Nat.mul_comm]
  rw [drawPixel, if_neg hvisible, hoffset]
  rfl

/-! ## Drawing -/

/-- Store the color of one pixel after the other. -/
def drawPixels (info : GraphicInfo) (color : Nat × Nat → FrameBufferColor)
    (frame : FrameBuffer) (pixels : List (Nat × Nat)) : FrameBuffer :=
  pixels.foldl (fun frame q => frame.write (pixelAddress info q) (color q)) frame

/-- The color at an address depends on four bytes. -/
theorem colorAt_congr {memory memory' : Memory} {p : Nat}
    (h : ∀ j < 4, memory' (p + j) = memory (p + j)) : colorAt memory' p = colorAt memory p := by
  have hfirst : memory' p = memory p := h 0 (by omega)
  rw [colorAt, colorAt, hfirst, h 1 (by omega), h 2 (by omega), h 3 (by omega)]

theorem colorAt_write_same (frame : FrameBuffer) (p : Nat) (color : FrameBufferColor) :
    colorAt (frame.write p color).memory p = color := by
  simp [colorAt, FrameBuffer.write]

theorem colorAt_write_other (frame : FrameBuffer) {p p' : Nat} (color : FrameBufferColor)
    (h : p' + 4 ≤ p ∨ p + 4 ≤ p') :
    colorAt (frame.write p color).memory p' = colorAt frame.memory p' := by
  apply colorAt_congr
  intro j hj
  simp only [FrameBuffer.write, Function.update_apply]
  rw [if_neg (by omega), if_neg (by omega), if_neg (by omega), if_neg (by omega)]

/-- Drawing a pixel changes the color of this pixel only. -/
theorem colorAt_draw (hinfo : info.Valid) (frame : FrameBuffer) {q q' : Nat × Nat}
    (hq : info.OnScreen q) (hq' : info.OnScreen q') (color : FrameBufferColor) :
    colorAt (frame.write (pixelAddress info q) color).memory (pixelAddress info q') =
      if q' = q then color else colorAt frame.memory (pixelAddress info q') := by
  by_cases hsame : q' = q
  · rw [if_pos hsame, hsame, colorAt_write_same]
  · rw [if_neg hsame]
    apply colorAt_write_other
    have hne := mt (pixelAddress_inj hinfo hq' hq) hsame
    rw [pixelAddress, pixelAddress] at hne ⊢
    omega

/-- The colors after pixels are drawn. -/
theorem colorAt_drawPixels (hinfo : info.Valid) (color : Nat × Nat → FrameBufferColor)
    (frame : FrameBuffer) {pixels : List (Nat × Nat)} (hpixels : ∀ q ∈ pixels, info.OnScreen q)
    {q : Nat × Nat} (hq : info.OnScreen q) :
    colorAt (drawPixels info color frame pixels).memory (pixelAddress info q) =
      if q ∈ pixels then color q else colorAt frame.memory (pixelAddress info q) := by
  induction pixels generalizing frame with
  | nil => rfl
  | cons first pixels ih =>
      have hfirst := hpixels first List.mem_cons_self
      show colorAt (drawPixels info color _ pixels).memory _ = _
      rw [ih _ fun q hq => hpixels q (List.mem_cons_of_mem first hq),
        colorAt_draw hinfo frame hfirst hq]
      by_cases hrest : q ∈ pixels
      · rw [if_pos hrest, if_pos (List.mem_cons_of_mem first hrest)]
      · by_cases hsame : q = first
        · rw [if_neg hrest, if_pos hsame, if_pos (hsame ▸ List.mem_cons_self), hsame]
        · have hout : q ∉ first :: pixels := fun hmem => (List.mem_cons.1 hmem).elim hsame hrest
          rw [if_neg hrest, if_neg hsame, if_neg hout]

/-- What drawing pixels writes. -/
theorem accesses_drawPixels (info : GraphicInfo) (color : Nat × Nat → FrameBufferColor)
    (frame : FrameBuffer) (pixels : List (Nat × Nat)) :
    (drawPixels info color frame pixels).accesses =
      ((pixels.map (pixelAddress info)).reverse.map Access.pixel) ++ frame.accesses := by
  induction pixels generalizing frame with
  | nil => rfl
  | cons first pixels ih =>
      show (drawPixels info color _ pixels).accesses = _
      rw [ih]
      simp [FrameBuffer.write]

/-- The bit of a line that the loop tests. -/
theorem lineColor_eq (line : BitVec 8) {k : Nat} (hk : k < 8) :
    lineColor line k = if line.getMsbD k then colorForeground else colorBackground := by
  have hmask : BitVec.twoPow 8 (7 - k) ≠ 0#8 := by
    intro hzero
    have hbit := congrArg (BitVec.getLsbD · (7 - k)) hzero
    rw [BitVec.getLsbD_twoPow] at hbit
    simp at hbit
    omega
  have hbit : line &&& (1#8 <<< (7 - k)) ≠ 0 ↔ line.getMsbD k = true := by
    rw [← BitVec.twoPow_eq, BitVec.and_twoPow, BitVec.getMsbD_eq_getLsbD]
    simp [hk, hmask]
  rw [lineColor]
  simp only [hbit]

/-- The color of a pixel of a drawn glyph. -/
def glyphColor (font : Font) (ch : BitVec 8) (q : Nat × Nat) : FrameBufferColor :=
  if (font ch.toNat (q.2 % 16)).getMsbD (q.1 % 8) then colorForeground else colorBackground

/-- The loops of `PutChar` draw the pixels of a cell. -/
theorem drawGlyph_eq (hinfo : info.Valid) (font : Font) (frame : FrameBuffer) (ch : BitVec 8)
    {p : Position} (hrow : p.row < info.rows) (hcol : p.col < info.cols) :
    drawGlyph info font frame ⟨BitVec.ofNat 32 (8 * p.col), BitVec.ofNat 32 (16 * p.row)⟩ ch =
      drawPixels info (glyphColor font ch) frame (cellPixels p) := by
  rw [drawPixels, cellPixels, List.foldl_flatMap, drawGlyph, fontHeight]
  apply List.foldl_ext
  intro frame i hi
  rw [List.foldl_map, fontWidth]
  apply List.foldl_ext
  intro frame k hk
  have hcell : (8 * p.col + k, 16 * p.row + i) ∈ cellPixels p :=
    List.mem_flatMap.2 ⟨i, hi, List.mem_map.2 ⟨k, hk, rfl⟩⟩
  have hi := List.mem_range.1 hi
  have hk := List.mem_range.1 hk
  have hline : (16 * p.row + i) % 16 = i := by omega
  have hbit : (8 * p.col + k) % 8 = k := by omega
  rw [← BitVec.ofNat_add, ← BitVec.ofNat_add,
    drawPixel_eq hinfo (cell_onScreen hrow hcol hcell), lineColor_eq _ hk, glyphColor, hline, hbit]

end Pixels

/-! ## What the frame buffer shows -/

section Frame

variable {info : GraphicInfo} {font : Font} {frame : FrameBuffer}
  {placed : List (BitVec 8 × Position)} {ch : BitVec 8} {p : Position}

theorem sinceFill_append (addresses : List Nat) (past : List Access) :
    sinceFill (addresses.map Access.pixel ++ past) = addresses ++ sinceFill past := by
  induction addresses with
  | nil => rfl
  | cons address addresses ih =>
      show address :: sinceFill (addresses.map Access.pixel ++ past) = _
      rw [ih]
      rfl

/-- Pixels that were not drawn since the last clear are drawn. -/
theorem once_append {addresses : List Nat} {past : List Access}
    (honce : ∀ earlier, earlier <:+ past → (sinceFill earlier).Nodup)
    (hnodup : (addresses ++ sinceFill past).Nodup) :
    ∀ earlier, earlier <:+ addresses.map Access.pixel ++ past → (sinceFill earlier).Nodup := by
  induction addresses with
  | nil => exact honce
  | cons address addresses ih =>
      intro earlier hearlier
      rcases List.suffix_cons_iff.1 hearlier with hnow | hbefore
      · rw [hnow]
        show (address :: sinceFill (addresses.map Access.pixel ++ past)).Nodup
        rw [sinceFill_append]
        exact hnodup
      · exact ih (List.nodup_cons.1 hnodup).2 earlier hbefore

theorem cellPixels_nodup (p : Position) : (cellPixels p).Nodup := by
  rw [cellPixels, List.nodup_flatMap]
  refine ⟨?_, List.nodup_range.imp ?_⟩
  · intro i hi
    refine List.nodup_range.map ?_
    intro k k' h
    have hx : 8 * p.col + k = 8 * p.col + k' := congrArg Prod.fst h
    omega
  · intro i j hne q hi hj
    obtain ⟨k, -, rfl⟩ := List.mem_map.1 hi
    obtain ⟨k', -, h⟩ := List.mem_map.1 hj
    have hy : 16 * p.row + j = 16 * p.row + i := congrArg Prod.snd h
    omega

/-- The frame buffer shows the glyphs: only bytes of the frame buffer were written, between two
clears no pixel was drawn twice, since the last clear the glyphs were drawn, all pixels of each,
and every pixel of the screen has its color. -/
structure FrameShows (info : GraphicInfo) (font : Font) (frame : FrameBuffer)
    (placed : List (BitVec 8 × Position)) : Prop where
  inside : ∀ access ∈ frame.accesses, access.Inside info
  once : ∀ past, past <:+ frame.accesses → (sinceFill past).Nodup
  drawn : (sinceFill frame.accesses).reverse = (drawnCells placed).flatMap (cellAddresses info)
  pixels : ∀ q, info.OnScreen q →
    colorAt frame.memory (pixelAddress info q) = rendered font placed q.1 q.2

namespace FrameShows

/-- A clear leaves nothing on the screen. -/
theorem fill (hinfo : info.Valid) (hinside : ∀ access ∈ frame.accesses, access.Inside info)
    (honce : ∀ past, past <:+ frame.accesses → (sinceFill past).Nodup) :
    FrameShows info font (frame.fill info.frameBufferBase info.frameBufferSize) [] where
  inside := by
    intro access haccess
    rcases List.mem_cons.1 haccess with rfl | hpast
    · exact ⟨Nat.le_refl _, Nat.le_refl _⟩
    · exact hinside access hpast
  once := by
    intro past hpast
    rcases List.suffix_cons_iff.1 hpast with rfl | hbefore
    · exact List.nodup_nil
    · exact honce past hbefore
  drawn := rfl
  pixels := by
    intro q hq
    obtain ⟨hlow, hhigh⟩ := pixel_inside hinfo hq
    show colorAt _ _ = colorAt (fun _ => 0) (pixelAddress info q)
    apply colorAt_congr
    intro j hj
    show fillMemory _ _ _ _ _ = _
    rw [fillMemory_apply, if_pos (by omega)]

end FrameShows

theorem rendered_append (g : BitVec 8 × Position) (x y : Nat) :
    rendered font (placed ++ [g]) x y =
      if g.2 = ⟨y / 16, x / 8⟩ ∧ hasInk font g.1 x y = true then colorForeground
      else rendered font placed x y := by
  simp only [rendered, List.any_append, List.any_cons, List.any_nil, Bool.or_false,
    Bool.or_eq_true, Bool.and_eq_true, beq_iff_eq]
  by_cases hnew : g.2 = ⟨y / 16, x / 8⟩ ∧ hasInk font g.1 x y = true
  · rw [if_pos (.inr hnew), if_pos hnew]
  · rw [if_neg hnew]
    exact if_congr (or_iff_left hnew) rfl rfl

/-- A cell without a glyph is blank. -/
theorem rendered_blank {x y : Nat} (h : ⟨y / 16, x / 8⟩ ∉ placed.map Prod.snd) :
    rendered font placed x y = colorBackground := by
  refine if_neg fun hany => ?_
  obtain ⟨g, hg, hcell⟩ := List.any_eq_true.1 hany
  have hplace : g.2 = ⟨y / 16, x / 8⟩ := eq_of_beq (Bool.and_eq_true_iff.1 hcell).1
  exact h (hplace ▸ List.mem_map_of_mem hg)

namespace FrameShows

/-- A space is not drawn and has no ink. -/
theorem space (h : FrameShows info font frame placed) :
    FrameShows info font frame (placed ++ [(Console.space, p)]) where
  inside := h.inside
  once := h.once
  drawn := by
    rw [h.drawn, drawnCells, drawnCells, List.filter_append]
    simp
  pixels := by
    intro q hq
    rw [h.pixels q hq, rendered_append, if_neg]
    simp [hasInk]

/-- The pixels of a new cell were not drawn since the last clear. -/
theorem nodup_draw (hinfo : info.Valid) (h : FrameShows info font frame placed)
    (hgrid : ∀ g ∈ placed, g.2.row < info.rows ∧ g.2.col < info.cols)
    (hrow : p.row < info.rows) (hcol : p.col < info.cols) (hnew : p ∉ placed.map Prod.snd) :
    ((cellAddresses info p).reverse ++ sinceFill frame.accesses).Nodup := by
  rw [List.nodup_append]
  refine ⟨List.nodup_reverse.2 ?_, h.once _ (List.suffix_refl _), ?_⟩
  · refine (cellPixels_nodup p).map_on ?_
    intro q hq q' hq' hsame
    exact pixelAddress_inj hinfo (cell_onScreen hrow hcol hq) (cell_onScreen hrow hcol hq') hsame
  · intro a ha b hb hsame
    subst hsame
    obtain ⟨q, hq, hqa⟩ := List.mem_map.1 (List.mem_reverse.1 ha)
    -- the address was drawn as a pixel of another cell
    have hdrawn := List.mem_reverse.2 hb
    rw [h.drawn] at hdrawn
    obtain ⟨p', hp', ha'⟩ := List.mem_flatMap.1 hdrawn
    obtain ⟨q', hq', hqa'⟩ := List.mem_map.1 ha'
    obtain ⟨g, hg, rfl⟩ := List.mem_map.1 hp'
    have hplaced := (List.mem_filter.1 hg).1
    obtain ⟨hgrow, hgcol⟩ := hgrid g hplaced
    have hpixel : q = q' := pixelAddress_inj hinfo (cell_onScreen hrow hcol hq)
      (cell_onScreen hgrow hgcol hq') (hqa.trans hqa'.symm)
    subst hpixel
    have hcell : g.2 = p := (mem_cellPixels.1 hq').trans (mem_cellPixels.1 hq).symm
    exact hnew (hcell ▸ List.mem_map_of_mem hplaced)

/-- A glyph is drawn in a new cell. -/
theorem draw (hinfo : info.Valid) (h : FrameShows info font frame placed)
    (hgrid : ∀ g ∈ placed, g.2.row < info.rows ∧ g.2.col < info.cols)
    (hrow : p.row < info.rows) (hcol : p.col < info.cols) (hnew : p ∉ placed.map Prod.snd)
    (hch : ch ≠ Console.space) :
    FrameShows info font
      (drawGlyph info font frame
        ⟨BitVec.ofNat 32 (8 * p.col), BitVec.ofNat 32 (16 * p.row)⟩ ch)
      (placed ++ [(ch, p)]) := by
  have hscreen : ∀ q ∈ cellPixels p, info.OnScreen q := fun q => cell_onScreen hrow hcol
  rw [drawGlyph_eq hinfo font frame ch hrow hcol]
  have haccesses := accesses_drawPixels info (glyphColor font ch) frame (cellPixels p)
  refine { inside := ?_, once := ?_, drawn := ?_, pixels := ?_ }
  · intro access haccess
    rw [haccesses] at haccess
    rcases List.mem_append.1 haccess with hdrawn | hpast
    · obtain ⟨address, haddress, rfl⟩ := List.mem_map.1 hdrawn
      obtain ⟨q, hq, rfl⟩ := List.mem_map.1 (List.mem_reverse.1 haddress)
      exact pixel_inside hinfo (hscreen q hq)
    · exact h.inside access hpast
  · rw [haccesses]
    exact once_append h.once (h.nodup_draw hinfo hgrid hrow hcol hnew)
  · rw [haccesses, sinceFill_append, List.reverse_append, List.reverse_reverse, h.drawn,
      drawnCells, drawnCells, List.filter_append]
    simp [hch, cellAddresses]
  · intro q hq
    rw [colorAt_drawPixels hinfo _ frame hscreen hq, rendered_append, h.pixels q hq]
    by_cases hcell : q ∈ cellPixels p
    · have hp := mem_cellPixels.1 hcell
      rw [if_pos hcell, glyphColor, rendered_blank (hp ▸ hnew)]
      simp [hp, hasInk, hch]
    · rw [if_neg hcell, if_neg fun hink => hcell (mem_cellPixels.2 hink.1)]

end FrameShows

end Frame

/-! ## The console -/

/-- The upper left pixel of a cell. -/
def cellPoint (p : Position) : Point := ⟨BitVec.ofNat 32 (8 * p.col), BitVec.ofNat 32 (16 * p.row)⟩

/-- The console shows a page of the grid, and its cursor is the one of the page. -/
structure Shows (info : GraphicInfo) (font : Font) (con : KernelConsole)
    (page : Page (BitVec 8)) : Prop where
  grid : OnGrid info.rows info.cols page
  cursor : con.cursorPosition = cellPoint page.cursor
  frame : FrameShows info font con.frame page.placed

section Cursor

variable {info : GraphicInfo} {con : KernelConsole} {p : Position}

theorem GraphicInfo.Valid.rows_pos (hinfo : info.Valid) : 0 < info.rows :=
  Nat.div_pos hinfo.height (by norm_num)

theorem GraphicInfo.Valid.cols_pos (hinfo : info.Valid) : 0 < info.cols :=
  Nat.div_pos hinfo.width (by norm_num)

/-- `IsNewLineRequired` finds a full line. -/
theorem isNewLineRequired_iff (hinfo : info.Valid) (hcursor : con.cursorPosition = cellPoint p)
    (hcol : p.col ≤ info.cols) : con.isNewLineRequired info = true ↔ ¬ p.col < info.cols := by
  have hwidth := hinfo.width
  have hbound := info.horizontalResolution.isLt
  rw [KernelConsole.isNewLineRequired, decide_eq_true_iff, hcursor, cellPoint, fontWidth, gt_iff_lt,
    BitVec.lt_def, BitVec.toNat_sub, BitVec.toNat_ofNat, BitVec.toNat_ofNat]
  rw [GraphicInfo.cols] at hcol ⊢
  omega

/-- `IsEndOfScreen` finds that there is no row left. -/
theorem isEndOfScreen_iff (hinfo : info.Valid) (hcursor : con.cursorPosition = cellPoint p)
    (hrow : p.row ≤ info.rows) : con.isEndOfScreen info = true ↔ ¬ p.row < info.rows := by
  have hheight := hinfo.height
  have hbound := info.verticalResolution.isLt
  rw [KernelConsole.isEndOfScreen, decide_eq_true_iff, hcursor, cellPoint, fontHeight, gt_iff_lt,
    BitVec.lt_def, BitVec.toNat_sub, BitVec.toNat_ofNat, BitVec.toNat_ofNat]
  rw [GraphicInfo.rows] at hrow ⊢
  omega

theorem nextLine_cursor (hcursor : con.cursorPosition = cellPoint p) :
    con.nextLine.cursorPosition = cellPoint ⟨p.row + 1, 0⟩ := by
  rw [KernelConsole.nextLine, hcursor, cellPoint, cellPoint, fontHeight, ← BitVec.ofNat_add]
  rfl

theorem advance_cursor (hcursor : con.cursorPosition = cellPoint p) :
    con.advance.cursorPosition = cellPoint ⟨p.row, p.col + 1⟩ := by
  rw [KernelConsole.advance, hcursor, cellPoint, cellPoint, fontWidth, ← BitVec.ofNat_add]
  rfl

/-- A full line wraps. -/
theorem wrapLine_cursor (hinfo : info.Valid) (hcursor : con.cursorPosition = cellPoint p)
    (hcol : p.col ≤ info.cols) :
    (con.wrapLine info).cursorPosition = cellPoint (p.wrap info.cols) := by
  by_cases hfull : p.col < info.cols
  · have hroom := mt (isNewLineRequired_iff hinfo hcursor hcol).1 (not_not.2 hfull)
    rw [KernelConsole.wrapLine, if_neg hroom, Position.wrap, if_pos hfull, hcursor]
  · have hwrap := (isNewLineRequired_iff hinfo hcursor hcol).2 hfull
    rw [KernelConsole.wrapLine, if_pos hwrap, Position.wrap, if_neg hfull]
    exact nextLine_cursor hcursor

theorem wrapLine_frame (info : GraphicInfo) (con : KernelConsole) :
    (con.wrapLine info).frame = con.frame := by
  rw [KernelConsole.wrapLine]
  split <;> rfl

end Cursor

namespace Shows

variable {info : GraphicInfo} {font : Font} {con : KernelConsole} {page : Page (BitVec 8)}
  {ch : BitVec 8}

/-- The constructor clears the screen. -/
theorem new (hinfo : info.Valid) (font : Font) (memory : Memory) :
    Shows info font (KernelConsole.new info memory) Page.empty where
  grid := OnGrid.empty hinfo.rows_pos
  cursor := rfl
  frame := FrameShows.fill hinfo (fun _ h => absurd h List.not_mem_nil) (by
    intro past hpast
    rw [List.suffix_nil.1 hpast]
    exact List.nodup_nil)

/-- `Reset` clears the screen, wherever the cursor is. -/
theorem reset (hinfo : info.Valid) (h : FrameShows info font con.frame page.placed) :
    Shows info font (con.reset info) Page.empty where
  grid := OnGrid.empty hinfo.rows_pos
  cursor := rfl
  frame := FrameShows.fill hinfo h.inside h.once

/-- A visible character is drawn where the layout has it, if there is a row. -/
theorem drawChar (hinfo : info.Valid) (hgrid : OnGrid info.rows info.cols page)
    (hframe : FrameShows info font con.frame page.placed)
    (hcursor : con.cursorPosition = cellPoint (page.cursor.wrap info.cols))
    (hrow : (page.cursor.wrap info.cols).row < info.rows) (hkind : charKind ch = .glyph) :
    Shows info font (con.drawChar info font ch) (page.put charKind info.cols ch) := by
  have hcol := OnGrid.wrap_col_lt hinfo.cols_pos page.cursor
  have hnew : page.cursor.wrap info.cols ∉ page.placed.map Prod.snd := by
    intro hmem
    obtain ⟨g, hg, hplace⟩ := List.mem_map.1 hmem
    have hbefore := hgrid.before_wrap hg
    rw [hplace] at hbefore
    omega
  rw [Page.put_glyph hkind]
  refine { grid := hgrid.glyph hinfo.cols_pos hrow, cursor := ?_, frame := ?_ }
  · rw [KernelConsole.drawChar]
    split <;> exact advance_cursor hcursor
  · by_cases hspace : ch = space
    · rw [KernelConsole.drawChar, if_pos hspace, hspace]
      exact hframe.space
    · rw [KernelConsole.drawChar, if_neg hspace]
      show FrameShows info font (drawGlyph info font con.frame con.cursorPosition ch) _
      rw [hcursor]
      exact hframe.draw hinfo hgrid.placed hrow hcol hnew hspace

/-- `PutChar` of a visible character. -/
theorem putChar_glyph {text : List (BitVec 8)} (hinfo : info.Valid)
    (h : Shows info font con (layout charKind info.cols text)) (hkind : charKind ch = .glyph) :
    Shows info font (((con.wrapLine info).resetAtEnd info).drawChar info font ch)
      (layout charKind info.cols (Lib.output charKind info.rows info.cols text ch)) := by
  have hcursor := wrapLine_cursor hinfo h.cursor h.grid.col_le
  have hframe : FrameShows info font (con.wrapLine info).frame
      (layout charKind info.cols text).placed := (wrapLine_frame info con).symm ▸ h.frame
  have hrow := Nat.le_trans (wrap_row_le info.cols _) h.grid.row_lt
  have hend := isEndOfScreen_iff hinfo hcursor hrow
  rw [output_glyph hkind, KernelConsole.resetAtEnd]
  by_cases hfits : ((layout charKind info.cols text).cursor.wrap info.cols).row < info.rows
  · rw [if_pos hfits, if_neg (mt hend.1 (not_not.2 hfits)), layout_append_singleton]
    exact drawChar hinfo h.grid hframe hcursor hfits hkind
  · -- the screen is cleared, and the character is the first of the next page
    rw [if_neg hfits, if_pos (hend.2 hfits)]
    have hblank := reset hinfo hframe
    have horigin : (Page.empty : Page (BitVec 8)).cursor.wrap info.cols = ⟨0, 0⟩ :=
      if_pos hinfo.cols_pos
    exact drawChar hinfo hblank.grid hblank.frame (horigin ▸ hblank.cursor)
      (horigin ▸ hinfo.rows_pos) hkind

/-- `PutChar` of a new line. -/
theorem putChar_newLine {text : List (BitVec 8)} (hinfo : info.Valid)
    (h : Shows info font con (layout charKind info.cols text)) (hkind : charKind ch = .newLine) :
    Shows info font (con.nextLine.resetAtEnd info)
      (layout charKind info.cols (Lib.output charKind info.rows info.cols text ch)) := by
  have hcursor := nextLine_cursor h.cursor
  have hend := isEndOfScreen_iff hinfo hcursor h.grid.row_lt
  rw [output_newLine hkind, KernelConsole.resetAtEnd]
  by_cases hfits : (layout charKind info.cols text).cursor.row + 1 < info.rows
  · rw [if_pos hfits, if_neg (mt hend.1 (not_not.2 hfits)), layout_append_singleton,
      Page.put_newLine hkind]
    exact { grid := h.grid.newLine hfits, cursor := hcursor, frame := h.frame }
  · rw [if_neg hfits, if_pos (hend.2 hfits)]
    exact reset hinfo (show FrameShows info font con.nextLine.frame _ from h.frame)

/-- `PutChar` shows the text with one more character. -/
theorem putChar {text : List (BitVec 8)} (hinfo : info.Valid)
    (h : Shows info font con (layout charKind info.cols text)) (ch : BitVec 8) :
    Shows info font (con.putChar info font ch)
      (layout charKind info.cols (Lib.output charKind info.rows info.cols text ch)) := by
  rw [KernelConsole.putChar]
  by_cases hvisible : isVisibleChar ch = true
  · rw [if_pos hvisible]
    exact h.putChar_glyph hinfo (if_pos hvisible)
  · rw [if_neg hvisible]
    by_cases hnewline : ch = newline
    · rw [if_pos hnewline]
      exact h.putChar_newLine hinfo ((if_neg hvisible).trans (if_pos hnewline))
    · have hkind : charKind ch = .ignored := (if_neg hvisible).trans (if_neg hnewline)
      rw [if_neg hnewline, h.grid.output_ignored hkind, layout_append_singleton,
        Page.put_ignored hkind]
      exact h

/-- `PutString` shows the characters before the NUL. -/
theorem putString {text : List (BitVec 8)} (hinfo : info.Valid)
    (h : Shows info font con (layout charKind info.cols text)) (str : List (BitVec 8)) :
    Shows info font (con.putString info font str)
      (layout charKind info.cols
        ((str.takeWhile (· ≠ 0)).foldl (Lib.output charKind info.rows info.cols) text)) := by
  induction str generalizing con text with
  | nil => exact h
  | cons ch str ih =>
      rw [KernelConsole.putString]
      by_cases hend : ch = 0
      · rw [if_pos hend, List.takeWhile_cons_of_neg (by simpa using hend)]
        exact h
      · rw [if_neg hend, List.takeWhile_cons_of_pos (by simpa using hend)]
        exact ih (h.putChar hinfo ch)

/-- Every call shows the text it leaves. -/
theorem exec {text : List (BitVec 8)} (hinfo : info.Valid)
    (h : Shows info font con (layout charKind info.cols text)) (op : ConsoleOp) :
    Shows info font (con.exec info font op) (layout charKind info.cols (op.output info text)) := by
  cases op with
  | putChar ch => exact h.putChar hinfo ch
  | putString str => exact h.putString hinfo str
  | flush => exact h.putChar hinfo newline
  | reset => exact reset hinfo h.frame

/-- Any calls show the text they leave. -/
theorem run {text : List (BitVec 8)} (hinfo : info.Valid)
    (h : Shows info font con (layout charKind info.cols text)) (ops : List ConsoleOp) :
    Shows info font (ops.foldl (KernelConsole.exec info font) con)
      (layout charKind info.cols (ops.foldl (ConsoleOp.output info) text)) := by
  induction ops generalizing con text with
  | nil => exact h
  | cons op ops ih => exact ih (h.exec hinfo op)

end Shows

/-- After any calls, the console has written inside the frame buffer only and has drawn no pixel
twice between two clears. The glyphs of the text since the last clear have cells of their own that
lie on the screen; each was drawn with all its pixels, in the order of the text, and nothing else
was. Every pixel of the screen has the color that the layout of this text gives it. -/
theorem screen_renders_text {info : GraphicInfo} (hinfo : info.Valid) (font : Font)
    (memory : Memory) (ops : List ConsoleOp) :
    let con := ops.foldl (KernelConsole.exec info font) (KernelConsole.new info memory)
    let page := layout charKind info.cols (ops.foldl (ConsoleOp.output info) [])
    (∀ access ∈ con.frame.accesses, access.Inside info) ∧
      (∀ past, past <:+ con.frame.accesses → (sinceFill past).Nodup) ∧
      (∀ g ∈ page.placed, (g.2.row < info.rows ∧ g.2.col < info.cols) ∧
        ∀ q ∈ cellPixels g.2, info.OnScreen q) ∧
      (page.placed.map Prod.snd).Nodup ∧
      (sinceFill con.frame.accesses).reverse =
        (drawnCells page.placed).flatMap (cellAddresses info) ∧
      ∀ x y, x < info.horizontalResolution.toNat → y < info.verticalResolution.toNat →
        colorAt con.frame.memory (pixelAddress info (x, y)) = rendered font page.placed x y := by
  intro con page
  have hshows : Shows info font con page := (Shows.new hinfo font memory).run hinfo ops
  refine ⟨hshows.frame.inside, hshows.frame.once, ?_, hshows.grid.nodup, hshows.frame.drawn, ?_⟩
  · intro g hg
    obtain ⟨hrow, hcol⟩ := hshows.grid.placed g hg
    exact ⟨⟨hrow, hcol⟩, fun q hq => cell_onScreen hrow hcol hq⟩
  · intro x y hx hy
    exact hshows.frame.pixels (x, y) ⟨hx, hy⟩

/-- A screen with room for one glyph. -/
def oneCell : GraphicInfo := ⟨0x1000, 512, 8, 8, 16⟩

theorem oneCell_valid : oneCell.Valid := by
  constructor <;> decide

/-- A second character on a screen of one cell clears the screen and is drawn. -/
theorem screen_renders_text_one_cell :
    colorAt ([ConsoleOp.putChar 0x41, .putChar 0x42].foldl
        (KernelConsole.exec oneCell fun ch _ => BitVec.ofNat 8 ch)
        (KernelConsole.new oneCell fun _ => 0xFF)).frame.memory
      (pixelAddress oneCell (1, 0)) = colorForeground :=
  (screen_renders_text oneCell_valid (fun ch _ => BitVec.ofNat 8 ch) (fun _ => 0xFF)
    [.putChar 0x41, .putChar 0x42]).2.2.2.2.2 1 0 (by decide) (by decide)

end HailOS.Console
