import Mathlib.Data.List.Nodup

/-!
# Text on a grid

Text is laid out left to right on a page of `cols` columns. A character either has a glyph, starts
a new line or does nothing. A line that is full wraps with the next glyph, not before. A page has
`rows` rows: when they run out the page is cleared, and `output` is the text since the last clear.
`OnGrid.glyph` and `OnGrid.newLine` say that the glyphs of a page stay on the grid, no two in one
place, as long as there is a row for the next character.
-/

namespace HailOS.Lib

/-- What a character does. -/
inductive CharKind where
  | glyph
  | newLine
  | ignored
deriving DecidableEq, Repr

/-- A place on the page. -/
structure Position where
  row : Nat
  col : Nat
deriving DecidableEq, Repr

/-- Where the next glyph goes. -/
def Position.wrap (cols : Nat) (p : Position) : Position :=
  if p.col < cols then p else ⟨p.row + 1, 0⟩

/-- A cursor, and the glyphs that were placed so far. -/
structure Page (Ch : Type) where
  cursor : Position
  placed : List (Ch × Position)
deriving DecidableEq, Repr

variable {Ch : Type}

/-- The empty page. -/
def Page.empty : Page Ch := ⟨⟨0, 0⟩, []⟩

section Layout

variable (kind : Ch → CharKind) (rows cols : Nat)

/-- Add a character. -/
def Page.put (page : Page Ch) (ch : Ch) : Page Ch :=
  match kind ch with
  | .glyph =>
      let p := page.cursor.wrap cols
      ⟨⟨p.row, p.col + 1⟩, page.placed ++ [(ch, p)]⟩
  | .newLine => ⟨⟨page.cursor.row + 1, 0⟩, page.placed⟩
  | .ignored => page

/-- The page of a text. -/
def layout (text : List Ch) : Page Ch := text.foldl (Page.put kind cols) Page.empty

/-- The text since the last clear, after one more character. A glyph for which there is no row is
the first of the next page; a new line for which there is no row is the last of this page. -/
def output (text : List Ch) (ch : Ch) : List Ch :=
  if (layout kind cols (text ++ [ch])).cursor.row < rows then text ++ [ch]
  else if kind ch = .glyph then [ch] else []

end Layout

variable {kind : Ch → CharKind} {rows cols : Nat}

theorem layout_append_singleton (text : List Ch) (ch : Ch) :
    layout kind cols (text ++ [ch]) = (layout kind cols text).put kind cols ch := by
  rw [layout, List.foldl_append]
  rfl

theorem Page.put_glyph {page : Page Ch} {ch : Ch} (hkind : kind ch = .glyph) :
    page.put kind cols ch =
      ⟨⟨(page.cursor.wrap cols).row, (page.cursor.wrap cols).col + 1⟩,
        page.placed ++ [(ch, page.cursor.wrap cols)]⟩ := by
  rw [put, hkind]

theorem Page.put_newLine {page : Page Ch} {ch : Ch} (hkind : kind ch = .newLine) :
    page.put kind cols ch = ⟨⟨page.cursor.row + 1, 0⟩, page.placed⟩ := by
  rw [put, hkind]

theorem Page.put_ignored {page : Page Ch} {ch : Ch} (hkind : kind ch = .ignored) :
    page.put kind cols ch = page := by
  rw [put, hkind]

theorem wrap_row_le (cols : Nat) (p : Position) : (p.wrap cols).row ≤ p.row + 1 := by
  rw [Position.wrap]
  split
  · exact Nat.le_succ p.row
  · exact Nat.le_refl (p.row + 1)

theorem output_glyph {text : List Ch} {ch : Ch} (hkind : kind ch = .glyph) :
    output kind rows cols text ch =
      if ((layout kind cols text).cursor.wrap cols).row < rows then text ++ [ch] else [ch] := by
  rw [output, layout_append_singleton, Page.put_glyph hkind, if_pos hkind]

theorem output_newLine {text : List Ch} {ch : Ch} (hkind : kind ch = .newLine) :
    output kind rows cols text ch =
      if (layout kind cols text).cursor.row + 1 < rows then text ++ [ch] else [] := by
  rw [output, layout_append_singleton, Page.put_newLine hkind, hkind]
  rfl

/-- The glyphs lie on the grid, before the cursor in reading order, and no two in one place. -/
structure OnGrid (rows cols : Nat) (page : Page Ch) : Prop where
  row_lt : page.cursor.row < rows
  col_le : page.cursor.col ≤ cols
  placed : ∀ g ∈ page.placed, g.2.row < rows ∧ g.2.col < cols
  before : ∀ g ∈ page.placed, g.2.row < page.cursor.row ∨
    g.2.row = page.cursor.row ∧ g.2.col < page.cursor.col
  nodup : (page.placed.map Prod.snd).Nodup

namespace OnGrid

variable {page : Page Ch} {ch : Ch}

theorem empty (hrows : 0 < rows) : OnGrid rows cols (Page.empty : Page Ch) where
  row_lt := hrows
  col_le := Nat.zero_le cols
  placed := fun _ h => absurd h List.not_mem_nil
  before := fun _ h => absurd h List.not_mem_nil
  nodup := List.nodup_nil

/-- The next glyph goes behind every other glyph. -/
theorem before_wrap (h : OnGrid rows cols page) {g : Ch × Position} (hg : g ∈ page.placed) :
    g.2.row < (page.cursor.wrap cols).row ∨
      g.2.row = (page.cursor.wrap cols).row ∧ g.2.col < (page.cursor.wrap cols).col := by
  have hbefore := h.before g hg
  rw [Position.wrap]
  split
  · exact hbefore
  · show g.2.row < page.cursor.row + 1 ∨ _
    omega

theorem wrap_col_lt (hcols : 0 < cols) (p : Position) : (p.wrap cols).col < cols := by
  rw [Position.wrap]
  split
  · assumption
  · exact hcols

/-- A glyph for which there is a row. -/
theorem glyph (h : OnGrid rows cols page) (hcols : 0 < cols)
    (hrow : (page.cursor.wrap cols).row < rows) :
    OnGrid rows cols ⟨⟨(page.cursor.wrap cols).row, (page.cursor.wrap cols).col + 1⟩,
      page.placed ++ [(ch, page.cursor.wrap cols)]⟩ where
  row_lt := hrow
  col_le := wrap_col_lt hcols page.cursor
  placed := by
    intro g hg
    rcases List.mem_append.1 hg with hold | hnew
    · exact h.placed g hold
    · rw [List.mem_singleton.1 hnew]
      exact ⟨hrow, wrap_col_lt hcols page.cursor⟩
  before := by
    intro g hg
    show g.2.row < (page.cursor.wrap cols).row ∨
      g.2.row = (page.cursor.wrap cols).row ∧ g.2.col < (page.cursor.wrap cols).col + 1
    rcases List.mem_append.1 hg with hold | hnew
    · have := h.before_wrap hold
      omega
    · rw [List.mem_singleton.1 hnew]
      exact .inr ⟨rfl, Nat.lt_succ_self _⟩
  nodup := by
    rw [List.map_append, List.map_singleton, List.nodup_append]
    refine ⟨h.nodup, List.nodup_singleton _, ?_⟩
    intro p hp q hq hsame
    have hnew : q = page.cursor.wrap cols := List.mem_singleton.1 hq
    obtain ⟨g, hg, hplace⟩ := List.mem_map.1 hp
    have hbefore := h.before_wrap hg
    rw [hplace, hsame, hnew] at hbefore
    omega

/-- A new line for which there is a row. -/
theorem newLine (h : OnGrid rows cols page) (hrow : page.cursor.row + 1 < rows) :
    OnGrid rows cols ⟨⟨page.cursor.row + 1, 0⟩, page.placed⟩ where
  row_lt := hrow
  col_le := Nat.zero_le cols
  placed := h.placed
  before := by
    intro g hg
    have hbefore := h.before g hg
    show g.2.row < page.cursor.row + 1 ∨ _
    omega
  nodup := h.nodup

/-- A character that does nothing needs no row. -/
theorem output_ignored {text : List Ch} (h : OnGrid rows cols (layout kind cols text))
    (hkind : kind ch = .ignored) : output kind rows cols text ch = text ++ [ch] := by
  rw [output, layout_append_singleton, Page.put_ignored hkind]
  exact if_pos h.row_lt

end OnGrid

end HailOS.Lib
