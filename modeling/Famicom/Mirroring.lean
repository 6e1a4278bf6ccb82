/-!
# Nametable mirroring

The picture processor addresses four nametables of one kibibyte each, of which the console holds
two.  Mirroring says which page of nametable memory each of the four shows.
-/

namespace Famicom

/-- How the four nametables share nametable memory. -/
inductive Mirroring where
  /-- The upper two tables show the first page, the lower two the second. -/
  | horizontal
  /-- The left two tables show the first page, the right two the second. -/
  | vertical
  /-- All tables show the first page. -/
  | singleLower
  /-- All tables show the second page. -/
  | singleUpper
  /-- The cartridge adds memory, and every table has its own page. -/
  | fourScreen
  deriving DecidableEq

namespace Mirroring

def name : Mirroring → String
  | .horizontal => "Horizontal"
  | .vertical => "Vertical"
  | .singleLower => "SingleLower"
  | .singleUpper => "SingleUpper"
  | .fourScreen => "FourScreen"

/-- The page that a table shows; tables and pages are numbered from zero to three. -/
def page (m : Mirroring) (table : Nat) : Nat :=
  match m with
  | .horizontal => table / 2
  | .vertical => table % 2
  | .singleLower => 0
  | .singleUpper => 1
  | .fourScreen => table

theorem page_lt (m : Mirroring) {table : Nat} (h : table < 4) : m.page table < 4 := by
  cases m <;> simp only [page] <;> omega

theorem place_lt (m : Mirroring) (address : Nat) :
    m.page (address % 0x1000 / 0x400) * 0x400 + address % 0x400 < 0x1000 := by
  have hPage : m.page (address % 0x1000 / 0x400) < 4 := m.page_lt (by omega)
  omega

/-- The place of a nametable address in four kibibytes of nametable memory. -/
def nametableOffset (m : Mirroring) (address : Nat) : Fin 0x1000 :=
  ⟨m.page (address % 0x1000 / 0x400) * 0x400 + address % 0x400, m.place_lt address⟩

end Mirroring

end Famicom
