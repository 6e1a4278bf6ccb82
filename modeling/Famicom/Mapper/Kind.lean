/-!
# Mapper numbers

Cartridge images name the banking hardware of a board by a number.  Six kinds are known.
-/

namespace Famicom.Mapper

inductive Kind where
  | nrom
  | mmc1
  | uxrom
  | cnrom
  | mmc3
  | axrom
  deriving DecidableEq

namespace Kind

def number : Kind → UInt8
  | .nrom => 0
  | .mmc1 => 1
  | .uxrom => 2
  | .cnrom => 3
  | .mmc3 => 4
  | .axrom => 7

def ofNumber? (n : UInt8) : Option Kind :=
  [nrom, mmc1, uxrom, cnrom, mmc3, axrom].find? (·.number == n)

def name : Kind → String
  | .nrom => "NROM"
  | .mmc1 => "MMC1"
  | .uxrom => "UxROM"
  | .cnrom => "CNROM"
  | .mmc3 => "MMC3"
  | .axrom => "AxROM"

def identifier : Kind → String
  | .nrom => "Nrom"
  | .mmc1 => "Mmc1"
  | .uxrom => "Uxrom"
  | .cnrom => "Cnrom"
  | .mmc3 => "Mmc3"
  | .axrom => "Axrom"

def title (kind : Kind) : String :=
  s!"{kind.name} (mapper {kind.number})"

theorem ofNumber?_number (kind : Kind) : ofNumber? kind.number = some kind := by
  cases kind <;> decide

end Kind

end Famicom.Mapper
